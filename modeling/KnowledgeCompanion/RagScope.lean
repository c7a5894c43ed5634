import KnowledgeCompanion.QaService
import KnowledgeCompanion.Ranking

/-! The default scope of a question (`resolveResourceIDs` of `service/qa_service.go`): the
page of the latest resources is cut before the completed ones are selected from it. -/

namespace KnowledgeCompanion.RagScope

open Conversations QaService Ranking
open TaskRecords (Resource)

/-- The completed resources of the user, the latest first, at most `limit`. -/
def completedByUserID (resources : LiveResources) (userID limit : ℕ) : List Resource :=
  ((resources.rows.filter fun r => r.userID == userID && r.status == resourceStatusCompleted)
    |>.insertionSort ListedBefore).take limit

instance : Std.Total ListedBefore := ⟨fun a b => by unfold ListedBefore; omega⟩

instance : IsTrans Resource ListedBefore := ⟨fun a b c => by unfold ListedBefore; omega⟩

section Pages

variable {α : Type*} (p : α → Bool) (n : ℕ) (xs : List α)

theorem take_filter : (xs.filter p).take n = (xs.take n).filter p ++
    ((xs.drop n).filter p).take (n - ((xs.take n).filter p).length) := by
  have short : ((xs.take n).filter p).length ≤ n :=
    (List.length_filter_le _ _).trans (List.length_take_le _ _)
  conv_lhs => rw [← List.take_append_drop n xs, List.filter_append, List.take_append,
    List.take_of_length_le short]

theorem length_take_filter_iff :
    ((xs.filter p).take n).length = ((xs.take n).filter p).length ↔
      (∀ x ∈ xs.take n, p x) ∨ ∀ x ∈ xs.drop n, ¬ p x := by
  rw [take_filter, List.length_append, Nat.add_eq_left, List.length_eq_zero_iff,
    List.take_eq_nil_iff, List.filter_eq_nil_iff]
  have short := List.length_filter_le p (xs.take n)
  have page := List.length_take (i := n) (l := xs)
  constructor
  · rintro (full | none)
    · left
      have whole : (xs.take n).filter p = xs.take n :=
        List.filter_sublist.eq_of_length_le (by omega)
      exact List.filter_eq_self.mp whole
    · exact .inr none
  · rintro (all | none)
    · rw [List.filter_eq_self.mpr all]
      by_cases enough : n ≤ xs.length
      · left
        omega
      · right
        rw [List.drop_eq_nil_of_le (by omega)]
        exact fun x mem => absurd mem List.not_mem_nil
    · exact .inr none

theorem map_take_filter_eq_iff {β : Type*} (f : α → β) :
    ((xs.take n).filter p).map f = ((xs.filter p).take n).map f ↔
      ((xs.filter p).take n).length = ((xs.take n).filter p).length := by
  refine ⟨fun same => by simpa using (congrArg List.length same).symm, fun lengths => ?_⟩
  rw [take_filter, List.length_append, Nat.add_eq_left, List.length_eq_zero_iff] at lengths
  rw [take_filter, lengths, List.append_nil]

end Pages

variable {resources : LiveResources} {userID : ℕ}

def listing (resources : LiveResources) (userID : ℕ) : List Resource :=
  (resources.rows.filter fun r => r.userID == userID).insertionSort ListedBefore

theorem mem_listing {r : Resource} :
    r ∈ listing resources userID ↔ r ∈ resources.rows ∧ r.userID = userID := by
  simp [listing]

theorem listing_nodup : (listing resources userID).Nodup := by
  have rows : resources.rows.Nodup := resources.uuid_unique.of_map _
  exact (List.perm_insertionSort _ _).nodup_iff.mpr (rows.filter _)

theorem completedByUserID_eq (limit : ℕ) : completedByUserID resources userID limit =
    ((listing resources userID).filter fun r =>
      r.status == resourceStatusCompleted).take limit := by
  rw [listing, filter_insertionSort, List.filter_filter, completedByUserID]
  simp only [Bool.and_comm]

theorem resolveResourceIDs_eq (cfg : QaServiceConfig) (resources : LiveResources)
    (conversation : Conversation) (userID : ℕ) (repo : cfg.resourceRepo = true)
    (unset : conversation.resourceIDs.getD [] = []) :
    resolveResourceIDs cfg resources none conversation userID =
      .ok (((listByUserID resources userID defaultRAGScopeLimit).filter fun r =>
        r.status == resourceStatusCompleted).map Resource.uuid) := by
  have named : ∀ r ∈ listByUserID resources userID defaultRAGScopeLimit,
      (r.uuid != [] && r.status == resourceStatusCompleted) =
        (r.status == resourceStatusCompleted) := by
    intro r mem
    have row := (mem_listing.mp (List.mem_of_mem_take mem)).1
    have some : r.uuid ≠ [] := by
      intro none
      have blank := LiveResources.uuid_named row
      rw [none] at blank
      cases blank
    simp [some]
  rw [resolveResourceIDs, unset, repo, List.filter_congr named]
  rfl

/-- The scope is the completed resources, the latest hundred of them, exactly when every
completed resource is on the page of the latest hundred, or that page is completed whole. -/
theorem resolveResourceIDs_iff (cfg : QaServiceConfig) (resources : LiveResources)
    (conversation : Conversation) (userID : ℕ) (repo : cfg.resourceRepo = true)
    (unset : conversation.resourceIDs.getD [] = []) :
    resolveResourceIDs cfg resources none conversation userID =
        .ok ((completedByUserID resources userID defaultRAGScopeLimit).map Resource.uuid) ↔
      (∀ r ∈ listByUserID resources userID defaultRAGScopeLimit,
        r.status = resourceStatusCompleted) ∨
      ∀ r ∈ resources.rows, r.userID = userID → r.status = resourceStatusCompleted →
        r ∈ listByUserID resources userID defaultRAGScopeLimit := by
  have page : listByUserID resources userID defaultRAGScopeLimit =
    (listing resources userID).take defaultRAGScopeLimit := rfl
  rw [resolveResourceIDs_eq cfg resources conversation userID repo unset, Except.ok.injEq,
    completedByUserID_eq, page, map_take_filter_eq_iff, length_take_filter_iff]
  simp only [beq_iff_eq]
  refine or_congr_right ⟨fun behind r mem user done => ?_, fun ahead r mem done => ?_⟩
  · have listed : r ∈ listing resources userID := mem_listing.mpr ⟨mem, user⟩
    rw [← List.take_append_drop defaultRAGScopeLimit (listing resources userID)] at listed
    exact (List.mem_append.mp listed).resolve_right fun later => behind r later done
  · obtain ⟨row, user⟩ := mem_listing.mp (List.mem_of_mem_drop mem)
    have distinct := @listing_nodup resources userID
    rw [← List.take_append_drop defaultRAGScopeLimit (listing resources userID)] at distinct
    exact List.disjoint_of_nodup_append distinct (ahead r row user done) mem

def upload (n : ℕ) (status : UInt8) (updatedAt : ℤ) : Resource where
  id := n + 1
  uuid := [Char.ofNat (19968 + n)]
  userID := 1
  name := []
  type := []
  status := status
  storageKey := []
  sizeBytes := 0
  mimeType := []
  autoSummary := false
  createdAt := 0
  updatedAt := updatedAt

/-- A completed resource and `n` later uploads that failed. -/
def failedUploads (n : ℕ) : List Resource :=
  upload 0 resourceStatusCompleted 0 :: (List.range n).map fun i => upload (i + 1) 4 1

theorem toNat_letter {n : ℕ} (small : n < 1000) : (Char.ofNat (19968 + n)).toNat = 19968 + n := by
  have valid : (19968 + n).isValidChar := .inl (by omega)
  rw [Char.ofNat, dif_pos valid]
  rfl

theorem failedUploads_uuids : ((failedUploads 100).map Resource.uuid).Nodup := by
  have letters : (failedUploads 100).map Resource.uuid =
      (List.range 101).map fun i => [Char.ofNat (19968 + i)] := rfl
  rw [letters]
  refine List.Nodup.map_on (fun i mem j mem' same => ?_) List.nodup_range
  rw [List.mem_range] at mem mem'
  have codes := congrArg Char.toNat (List.singleton_inj.mp same)
  rw [toNat_letter (by omega), toNat_letter (by omega)] at codes
  omega

theorem upload_named {i : ℕ} (small : i < 1000) (status : UInt8) (updatedAt : ℤ) :
    PythonText.isBlank (upload i status updatedAt).uuid = false := by
  rw [Bool.eq_false_iff, ne_eq, PythonText.isBlank_iff]
  intro blank
  have letter := blank (Char.ofNat (19968 + i)) List.mem_cons_self
  simp only [PythonText.isSpace, toNat_letter small, Bool.or_eq_true, Bool.and_eq_true,
    decide_eq_true_eq, beq_iff_eq] at letter
  omega

theorem failedUploads_named :
    ∀ r ∈ failedUploads 100, PythonText.isBlank r.uuid = false := by
  intro r mem
  rcases List.mem_cons.mp mem with rfl | later
  · exact upload_named (by omega) _ _
  · obtain ⟨i, below, rfl⟩ := List.mem_map.mp later
    rw [List.mem_range] at below
    exact upload_named (by omega) _ _

def busyLibrary : LiveResources :=
  .exact (failedUploads 100) failedUploads_uuids failedUploads_named

def courseChat : Conversation := ⟨1, courseUUID, 1, [], none⟩

/-- A hundred failed uploads take the place of the completed resource. -/
theorem failed_uploads_empty_scope :
    resolveResourceIDs mainConfig busyLibrary none courseChat 1 = .ok [] ∧
    (completedByUserID busyLibrary 1 defaultRAGScopeLimit).map Resource.uuid =
      [[Char.ofNat 19968]] := by
  decide +kernel

theorem resolveResourceIDs_empty_library :
    mainConfig.resourceRepo = true ∧ courseChat.resourceIDs.getD [] = [] ∧
    resolveResourceIDs mainConfig noResources none courseChat 1 =
      .ok ((completedByUserID noResources 1 defaultRAGScopeLimit).map Resource.uuid) :=
  ⟨rfl, rfl, (resolveResourceIDs_iff mainConfig noResources courseChat 1 rfl rfl).mpr
    (.inr fun _ mem => absurd mem List.not_mem_nil)⟩

end KnowledgeCompanion.RagScope
