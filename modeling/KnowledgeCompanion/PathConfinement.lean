import KnowledgeCompanion.ObjectLocation

/-! Uploaded names and object paths stay where they belong: a storage key has the segments
that `Upload` gives it, and a normalised object name has proper segments only. -/

namespace KnowledgeCompanion.PathConfinement

open TaskRecords TaskService FileService ObjectLocation

/-- A key of this user and resource, with one harmless segment for the file. -/
def KeySegments (user resource key : Text) : Prop :=
  ∃ file, key.splitOn '/' = [user, resource, file] ∧ file ≠ [] ∧ ¬ ['.', '.'] <:+: file ∧
    file ≠ ['.']

def segments (name : Text) : List Text := if name = [] then [] else name.splitOn '/'

theorem storageKey_segments {user resource : Text} (hu : '/' ∉ user) (hr : '/' ∉ resource)
    (filename : Text) : KeySegments user resource (storageKey user resource filename) := by
  obtain ⟨slash, some, single, -⟩ := sanitizeFilename_segment filename
  exact ⟨sanitizeFilename filename, Text.splitOn_eq_three.mpr ⟨rfl, hu, hr, slash⟩, some,
    sanitizeFilename_no_dots filename, single⟩

theorem upload_objects {cfg : ServiceConfig} {s : Gateway} {io : GatewayIO} {req : UploadRequest}
    {key : Text} (mem : key ∈ (upload cfg s io req).2.objects) : key ∈ s.objects ∨
      ∃ header, req.header = some header ∧
        key = storageKey req.userUUID io.resourceUUID header.filename := by
  rcases GatewayRuns.upload_cases cfg s io req with none | ⟨header, s₁, valid, stored, ends⟩
  · rw [none] at mem
    exact .inl mem
  · have among : key ∈ s₁.objects := by
      rcases ends with back | ⟨resource, task, s₂, -, made, after⟩
      · rw [back] at mem
        exact GatewayRuns.removeObject_objects s₁ io _ mem
      · have objects₂ : s₂.objects = s₁.objects := by rw [(GatewayRuns.createTask_ok made).2.2]
        rw [after] at mem
        split at mem
        · rwa [(dispatchUpload_sent cfg s₂ io task resource).2, objects₂] at mem
        · rwa [objects₂] at mem
    rw [stored.objects] at among
    rcases List.mem_append.mp among with before | one
    · exact .inl before
    · exact .inr ⟨header, validateUpload_header valid, List.mem_singleton.mp one⟩

theorem keepSegment_proper {parts cleaned : List Text}
    (pieces : ∀ part ∈ parts, '/' ∉ part ∧ part ≠ [] ∧ part ≠ ['.'])
    (proper : ∀ part ∈ cleaned, IsSegment part) :
    ∀ part ∈ parts.foldl keepSegment cleaned, IsSegment part := by
  induction parts generalizing cleaned with
  | nil => exact proper
  | cons first parts ih =>
    refine ih (fun part mem => pieces part (List.mem_cons_of_mem first mem)) ?_
    intro part mem
    unfold keepSegment at mem
    split at mem
    · exact proper part (List.dropLast_subset _ mem)
    · rename_i other
      rcases List.mem_append.mp mem with before | here
      · exact proper part before
      · obtain ⟨slash, some, single⟩ := pieces first List.mem_cons_self
        rw [List.mem_singleton.mp here]
        exact ⟨slash, some, single, other⟩

theorem normalize_parts (path : Text) : ∃ parts : List Text,
    normalizeObjectName path = ['/'].intercalate parts ∧ ∀ part ∈ parts, IsSegment part := by
  refine ⟨_, rfl, keepSegment_proper (fun part mem => ?_) fun part mem =>
    absurd mem List.not_mem_nil⟩
  obtain ⟨piece, kept⟩ := List.mem_filter.mp mem
  rw [Bool.and_eq_true, bne_iff_ne, bne_iff_ne] at kept
  exact ⟨Text.not_mem_of_mem_splitOn piece, kept⟩

theorem segments_intercalate {parts : List Text} (proper : ∀ part ∈ parts, IsSegment part) :
    segments (['/'].intercalate parts) = parts := by
  cases parts with
  | nil => rfl
  | cons part parts =>
    have pieces : (['/'].intercalate (part :: parts)).splitOn '/' = part :: parts :=
      List.splitOn_intercalate '/' (fun part mem => (proper part mem).1) (List.cons_ne_nil _ _)
    have some : ['/'].intercalate (part :: parts) ≠ [] := by
      intro empty
      rw [empty, List.splitOn_nil] at pieces
      exact (proper part List.mem_cons_self).2.1 (List.cons.inj pieces).1.symm
    rw [segments, if_neg some, pieces]

/-- Every key that `Upload` builds has the user, the resource and one harmless segment, and
only such keys are added to the stored objects; every normalised name consists of proper
segments and is its own normal form. -/
theorem paths_confined :
    (∀ (cfg : ServiceConfig) (s : Gateway) (io : GatewayIO) (req : UploadRequest),
      '/' ∉ req.userUUID → '/' ∉ io.resourceUUID →
        (∀ filename, KeySegments req.userUUID io.resourceUUID
          (storageKey req.userUUID io.resourceUUID filename)) ∧
        ∀ key ∈ (upload cfg s io req).2.objects,
          key ∈ s.objects ∨ KeySegments req.userUUID io.resourceUUID key) ∧
    ∀ path, (∀ segment ∈ segments (normalizeObjectName path),
        segment ≠ [] ∧ segment ≠ ['.'] ∧ segment ≠ ['.', '.']) ∧
      normalizeObjectName (normalizeObjectName path) = normalizeObjectName path := by
  refine ⟨fun cfg s io req hu hr => ⟨storageKey_segments hu hr, fun key mem => ?_⟩, fun path => ?_⟩
  · refine (upload_objects mem).imp_right ?_
    rintro ⟨header, -, rfl⟩
    exact storageKey_segments hu hr header.filename
  · obtain ⟨parts, joined, proper⟩ := normalize_parts path
    rw [joined, segments_intercalate proper]
    exact ⟨fun part mem => (proper part mem).2, normalize_intercalate proper⟩

theorem paths_confined_example :
    KeySegments "u".toList "r".toList (storageKey "u".toList "r".toList "../..".toList) :=
  (paths_confined.1 ⟨fun _ => true, 300, ⟨[], []⟩⟩ ⟨.empty, .empty, [], [], []⟩
    { resourceUUID := "r".toList } ⟨none, 1, "u".toList, false⟩ (by decide) (by decide)).1 _

end KnowledgeCompanion.PathConfinement
