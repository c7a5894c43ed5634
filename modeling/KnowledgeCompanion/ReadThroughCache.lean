import Mathlib.Tactic.Common
import Mathlib.Data.Int.Notation
import Mathlib.Data.List.Dedup
import Mathlib.Data.List.DropRight
import Mathlib.Data.List.Induction
import Mathlib.Data.List.Nodup

/-! A read-through cache that is never refreshed: an ordered table from keys to values,
the entry used last at its end, and the oldest entries dropped beyond a bound. What an
access returns was built from the source as it stood at the last build for its key. -/

namespace KnowledgeCompanion.ReadThroughCache

abbrev Entries (κ ν : Type*) := List (κ × ν)

variable {κ ν : Type*} [DecidableEq κ]

def lookup (k : κ) : Entries κ ν → Option ν
  | [] => none
  | (other, v) :: rest => if other = k then some v else lookup k rest

def moveToEnd (k : κ) (entries : Entries κ ν) : Entries κ ν :=
  (entries.filter fun e => e.1 ≠ k) ++ entries.filter fun e => e.1 = k

def assign (k : κ) (v : ν) : Entries κ ν → Entries κ ν
  | [] => [(k, v)]
  | (other, old) :: rest => if other = k then (k, v) :: rest else (other, old) :: assign k v rest

/-- Pops the oldest entry while there are more than `max`; below zero the last pop finds
nothing. -/
def evict (max : ℤ) (entries : Entries κ ν) : Option (Entries κ ν) :=
  if max < 0 then none else some (entries.drop (entries.length - max.toNat))

omit [DecidableEq κ] in
theorem evict_eq {max : ℤ} {entries rest : Entries κ ν} (h : evict max entries = some rest) :
    rest = entries.drop (entries.length - max.toNat) := by
  unfold evict at h
  split at h
  · cases h
  · exact (Option.some.inj h).symm

theorem mem_of_lookup {k : κ} {v : ν} {entries : Entries κ ν}
    (found : lookup k entries = some v) : (k, v) ∈ entries := by
  induction entries with
  | nil => cases found
  | cons e entries ih =>
    obtain ⟨other, w⟩ := e
    rw [lookup] at found
    by_cases same : other = k
    · rw [if_pos same] at found
      rw [same, Option.some.inj found]
      exact List.mem_cons_self
    · rw [if_neg same] at found
      exact List.mem_cons_of_mem _ (ih found)

theorem lookup_of_mem {k : κ} {v : ν} {entries : Entries κ ν}
    (distinct : (entries.map Prod.fst).Nodup) (mem : (k, v) ∈ entries) :
    lookup k entries = some v := by
  induction entries with
  | nil => simp at mem
  | cons e entries ih =>
    obtain ⟨other, w⟩ := e
    obtain ⟨first, rest⟩ := List.nodup_cons.mp distinct
    rw [lookup]
    rcases List.mem_cons.mp mem with here | later
    · obtain ⟨rfl, rfl⟩ := Prod.mk.inj here
      exact if_pos rfl
    · have ne : other ≠ k := by
        intro same
        rw [same] at first
        exact first (List.mem_map.mpr ⟨(k, v), later, rfl⟩)
      rw [if_neg ne]
      exact ih rest later

theorem lookup_assign (k other : κ) (v : ν) (entries : Entries κ ν) :
    lookup other (assign k v entries) = if k = other then some v else lookup other entries := by
  induction entries with
  | nil => rfl
  | cons e entries ih =>
    obtain ⟨key, old⟩ := e
    rw [assign]
    by_cases same : key = k
    · by_cases found : k = other <;> simp [lookup, same, found]
    · rw [if_neg same, lookup, lookup, ih]
      by_cases found : k = other
      · have apart : key ≠ other := fun here => same (here.trans found.symm)
        simp [found, apart]
      · simp [found]

theorem mem_moveToEnd {k : κ} {e : κ × ν} {entries : Entries κ ν} :
    e ∈ moveToEnd k entries ↔ e ∈ entries := by
  rw [moveToEnd, List.mem_append, List.mem_filter, List.mem_filter]
  by_cases same : e.1 = k <;> simp [same]

theorem moveToEnd_perm (k : κ) (entries : Entries κ ν) : (moveToEnd k entries).Perm entries := by
  have whole := List.filter_append_perm (fun e : κ × ν => decide (e.1 ≠ k)) entries
  simpa [moveToEnd] using whole

theorem nodup_moveToEnd {entries : Entries κ ν} (k : κ)
    (distinct : (entries.map Prod.fst).Nodup) :
    ((moveToEnd k entries).map Prod.fst).Nodup :=
  ((moveToEnd_perm k entries).map Prod.fst).nodup_iff.mpr distinct

theorem mem_assign {k : κ} {v : ν} {e : κ × ν} {entries : Entries κ ν}
    (mem : e ∈ assign k v entries) : e = (k, v) ∨ e ∈ entries := by
  induction entries with
  | nil => exact .inl (List.mem_singleton.mp mem)
  | cons first entries ih =>
    obtain ⟨other, old⟩ := first
    rw [assign] at mem
    split at mem
    · rcases List.mem_cons.mp mem with here | later
      · exact .inl here
      · exact .inr (List.mem_cons_of_mem _ later)
    · rcases List.mem_cons.mp mem with here | later
      · exact .inr (by simp [here])
      · rcases ih later with new | there
        · exact .inl new
        · exact .inr (List.mem_cons_of_mem _ there)

theorem keys_assign (k : κ) (v : ν) (entries : Entries κ ν) :
    (assign k v entries).map Prod.fst = entries.map Prod.fst ∨
      k ∉ entries.map Prod.fst ∧
        (assign k v entries).map Prod.fst = entries.map Prod.fst ++ [k] := by
  induction entries with
  | nil => exact .inr ⟨List.not_mem_nil, rfl⟩
  | cons first entries ih =>
    obtain ⟨other, old⟩ := first
    rw [assign]
    by_cases same : other = k
    · rw [if_pos same]
      exact .inl (by simp [same])
    · rw [if_neg same]
      rcases ih with kept | ⟨fresh, added⟩
      · exact .inl (by simp [kept])
      · refine .inr ⟨?_, by simp [added]⟩
        simp only [List.map_cons, List.mem_cons, not_or]
        exact ⟨Ne.symm same, fresh⟩

theorem nodup_assign {entries : Entries κ ν} (k : κ) (v : ν)
    (distinct : (entries.map Prod.fst).Nodup) :
    ((assign k v entries).map Prod.fst).Nodup := by
  rcases keys_assign k v entries with kept | ⟨fresh, added⟩
  · rw [kept]
    exact distinct
  · rw [added, List.nodup_append]
    refine ⟨distinct, List.nodup_singleton k, fun other mem last one => ?_⟩
    rw [List.mem_singleton.mp one]
    exact fun same => fresh (same ▸ mem)

omit [DecidableEq κ] in
theorem nodup_evict {max : ℤ} {entries rest : Entries κ ν}
    (distinct : (entries.map Prod.fst).Nodup) (h : evict max entries = some rest) :
    (rest.map Prod.fst).Nodup := by
  rw [evict_eq h]
  exact distinct.sublist ((List.drop_sublist _ entries).map Prod.fst)

/-- What an access asks for, how its value is built, and the bounds of the table. -/
structure Design (σ α κ ν ε : Type*) where
  key : α → κ
  build : σ → α → Except ε ν
  enabled : Bool
  maxEntries : ℤ
  exhausted : ε

variable {σ α ε : Type*}

def access (d : Design σ α κ ν ε) (source : σ) (entries : Entries κ ν) (a : α) :
    Except ε ν × Entries κ ν :=
  match if d.enabled then lookup (d.key a) entries else none with
  | some v => (.ok v, moveToEnd (d.key a) entries)
  | none =>
    match d.build source a with
    | .error e => (.error e, entries)
    | .ok v =>
      if d.enabled then
        match evict d.maxEntries (moveToEnd (d.key a) (assign (d.key a) v entries)) with
        | none => (.error d.exhausted, [])
        | some rest => (.ok v, rest)
      else (.ok v, entries)

structure World (σ κ ν : Type*) where
  source : σ
  entries : Entries κ ν

inductive Event (σ α : Type*)
  | change (f : σ → σ)
  | ask (a : α)

def step (d : Design σ α κ ν ε) (w : World σ κ ν) : Event σ α → World σ κ ν
  | .change f => { w with source := f w.source }
  | .ask a => { w with entries := (access d w.source w.entries a).2 }

def run (d : Design σ α κ ν ε) (w : World σ κ ν) (events : List (Event σ α)) : World σ κ ν :=
  events.foldl (step d) w

def Cached (d : Design σ α κ ν ε) (w : World σ κ ν) (a : α) : Prop :=
  d.enabled = true ∧ (lookup (d.key a) w.entries).isSome = true

theorem run_snoc (d : Design σ α κ ν ε) (w : World σ κ ν) (events : List (Event σ α))
    (e : Event σ α) : run d w (events ++ [e]) = step d (run d w events) e := by
  rw [run, run, List.foldl_append, List.foldl_cons, List.foldl_nil]

/-- Each access has one outcome of five. -/
theorem access_cases (d : Design σ α κ ν ε) (source : σ) (entries : Entries κ ν) (a : α) :
    (∃ v, d.enabled = true ∧ lookup (d.key a) entries = some v ∧
      access d source entries a = (.ok v, moveToEnd (d.key a) entries)) ∨
    (¬ Cached d ⟨source, entries⟩ a ∧
      ((∃ e, d.build source a = .error e ∧ access d source entries a = (.error e, entries)) ∨
      (∃ v, d.build source a = .ok v ∧ d.enabled = false ∧
        access d source entries a = (.ok v, entries)) ∨
      (∃ v, d.build source a = .ok v ∧ d.enabled = true ∧ d.maxEntries < 0 ∧
        access d source entries a = (.error d.exhausted, [])) ∨
      (∃ v rest, d.build source a = .ok v ∧ d.enabled = true ∧
        evict d.maxEntries (moveToEnd (d.key a) (assign (d.key a) v entries)) = some rest ∧
        access d source entries a = (.ok v, rest)))) := by
  unfold access
  cases found : (if d.enabled then lookup (d.key a) entries else none) with
  | some v =>
    have on : d.enabled = true := by
      cases off : d.enabled with
      | true => rfl
      | false => simp [off] at found
    rw [if_pos on] at found
    exact .inl ⟨v, on, found, rfl⟩
  | none =>
    have missing : ¬ Cached d ⟨source, entries⟩ a := by
      rintro ⟨on, there⟩
      rw [if_pos on] at found
      simp [found] at there
    refine .inr ⟨missing, ?_⟩
    cases built : d.build source a with
    | error e => exact .inl ⟨e, rfl, rfl⟩
    | ok v =>
      refine .inr ?_
      cases on : d.enabled with
      | false => exact .inl ⟨v, rfl, rfl, rfl⟩
      | true =>
        refine .inr ?_
        cases kept : evict d.maxEntries (moveToEnd (d.key a) (assign (d.key a) v entries)) with
        | none =>
          have negative : d.maxEntries < 0 := by
            unfold evict at kept
            split at kept
            · assumption
            · cases kept
          exact .inl ⟨v, rfl, rfl, negative, by simp [kept]⟩
        | some rest => exact .inr ⟨v, rest, rfl, rfl, kept, by simp [kept]⟩

theorem nodup_access {d : Design σ α κ ν ε} {source : σ} {entries : Entries κ ν} (a : α)
    (distinct : (entries.map Prod.fst).Nodup) :
    ((access d source entries a).2.map Prod.fst).Nodup := by
  rcases access_cases d source entries a with
    ⟨v, -, -, hit⟩ | ⟨-, ⟨e, -, fail⟩ | ⟨v, -, -, off⟩ | ⟨v, -, -, -, full⟩ |
      ⟨v, rest, -, -, kept, new⟩⟩
  · rw [hit]
    exact nodup_moveToEnd _ distinct
  · rw [fail]
    exact distinct
  · rw [off]
    exact distinct
  · rw [full]
    exact List.nodup_nil
  · rw [new]
    exact nodup_evict (nodup_moveToEnd _ (nodup_assign _ v distinct)) kept

theorem mem_access {d : Design σ α κ ν ε} {source : σ} {entries : Entries κ ν} {a : α}
    {k : κ} {v : ν} (mem : (k, v) ∈ (access d source entries a).2) :
    (k, v) ∈ entries ∨
      d.key a = k ∧ ¬ Cached d ⟨source, entries⟩ a ∧ d.enabled = true ∧
        d.build source a = .ok v := by
  rcases access_cases d source entries a with
    ⟨w, -, -, hit⟩ | ⟨missing, ⟨e, -, fail⟩ | ⟨w, -, -, off⟩ | ⟨w, -, -, -, full⟩ |
      ⟨w, rest, built, on, kept, new⟩⟩
  · rw [hit] at mem
    exact .inl (mem_moveToEnd.mp mem)
  · rw [fail] at mem
    exact .inl mem
  · rw [off] at mem
    exact .inl mem
  · rw [full] at mem
    simp at mem
  · rw [new, evict_eq kept] at mem
    rcases mem_assign (mem_moveToEnd.mp (List.mem_of_mem_drop mem)) with here | there
    · obtain ⟨rfl, rfl⟩ := Prod.mk.inj here
      exact .inr ⟨rfl, missing, on, built⟩
    · exact .inl there

theorem nodup_run (d : Design σ α κ ν ε) (source : σ) (events : List (Event σ α)) :
    ((run d ⟨source, []⟩ events).entries.map Prod.fst).Nodup := by
  induction events using List.reverseRecOn with
  | nil => exact List.nodup_nil
  | append_singleton events e ih =>
    rw [run_snoc]
    cases e with
    | change f => exact ih
    | ask a => exact nodup_access a ih

/-- The value for `a` was built by the access `b`, which stands first in `later`, and the
key of `a` has been in the table ever since. -/
structure BuiltBy (d : Design σ α κ ν ε) (w : World σ κ ν) (earlier later : List (Event σ α))
    (a b : α) : Prop where
  key : d.key b = d.key a
  missing : ¬ Cached d (run d w earlier) b
  first : ∃ rest, later = .ask b :: rest ∧
    ∀ mid, mid <+: rest → Cached d (run d w (earlier ++ .ask b :: mid)) a

/-- The access `a` after the events builds its value itself, or an earlier one has. -/
def LastBuild (d : Design σ α κ ν ε) (w : World σ κ ν) (earlier later : List (Event σ α))
    (a b : α) : Prop :=
  (later = [] ∧ b = a ∧ ¬ Cached d (run d w earlier) a) ∨ BuiltBy d w earlier later a b

theorem cached_of_mem {d : Design σ α κ ν ε} {source : σ} {events : List (Event σ α)} {a : α}
    {v : ν} (on : d.enabled = true) (mem : (d.key a, v) ∈ (run d ⟨source, []⟩ events).entries) :
    Cached d (run d ⟨source, []⟩ events) a :=
  ⟨on, by rw [lookup_of_mem (nodup_run d source events) mem]; rfl⟩

theorem entry_builtBy {d : Design σ α κ ν ε} {source : σ} {events : List (Event σ α)} {a : α}
    {v : ν} (on : d.enabled = true) (mem : (d.key a, v) ∈ (run d ⟨source, []⟩ events).entries) :
    ∃ earlier later b, events = earlier ++ later ∧ BuiltBy d ⟨source, []⟩ earlier later a b ∧
      d.build (run d ⟨source, []⟩ earlier).source b = .ok v := by
  induction events using List.reverseRecOn with
  | nil => simp [run] at mem
  | append_singleton events e ih =>
    have now := cached_of_mem on mem
    -- an older entry: its build stays the last one, and the key is still in the table
    have older (there : (d.key a, v) ∈ (run d ⟨source, []⟩ events).entries) :
        ∃ earlier later b, events ++ [e] = earlier ++ later ∧
          BuiltBy d ⟨source, []⟩ earlier later a b ∧
          d.build (run d ⟨source, []⟩ earlier).source b = .ok v := by
      obtain ⟨earlier, later, b, split, ⟨key, missing, rest, first, since⟩, built⟩ := ih there
      refine ⟨earlier, later ++ [e], b, ?_, ⟨key, missing, rest ++ [e], ?_, ?_⟩, built⟩
      · rw [split, List.append_assoc]
      · rw [first, List.cons_append]
      · intro mid before
        rcases List.prefix_concat_iff.mp before with whole | shorter
        · have all : earlier ++ Event.ask b :: mid = events ++ [e] := by
            rw [whole, split, first, List.append_assoc, List.cons_append]
          rw [all]
          exact now
        · exact since mid shorter
    rw [run_snoc] at mem
    cases e with
    | change f => exact older mem
    | ask b =>
      rcases mem_access mem with there | ⟨key, missing, -, built⟩
      · exact older there
      · refine ⟨events, [.ask b], b, rfl, ⟨key, missing, [], rfl, ?_⟩, built⟩
        intro mid before
        rw [List.prefix_nil.mp before]
        exact now

theorem access_lastBuild {d : Design σ α κ ν ε} {source : σ} {events : List (Event σ α)} {a : α}
    {v : ν}
    (answered : (access d (run d ⟨source, []⟩ events).source
      (run d ⟨source, []⟩ events).entries a).1 = .ok v) :
    ∃ earlier later b, events = earlier ++ later ∧ LastBuild d ⟨source, []⟩ earlier later a b ∧
      d.build (run d ⟨source, []⟩ earlier).source b = .ok v := by
  have here (missing : ¬ Cached d (run d ⟨source, []⟩ events) a)
      (built : d.build (run d ⟨source, []⟩ events).source a = .ok v) :
      ∃ earlier later b, events = earlier ++ later ∧ LastBuild d ⟨source, []⟩ earlier later a b ∧
        d.build (run d ⟨source, []⟩ earlier).source b = .ok v :=
    ⟨events, [], a, (List.append_nil events).symm, .inl ⟨rfl, rfl, missing⟩, built⟩
  rcases access_cases d (run d ⟨source, []⟩ events).source
    (run d ⟨source, []⟩ events).entries a with
    ⟨w, on, found, hit⟩ | ⟨missing, ⟨e, -, fail⟩ | ⟨w, built, -, off⟩ | ⟨w, -, -, -, full⟩ |
      ⟨w, rest, built, -, -, new⟩⟩
  · rw [hit] at answered
    rw [Except.ok.inj answered] at found
    obtain ⟨earlier, later, b, split, builtBy, built⟩ := entry_builtBy on (mem_of_lookup found)
    exact ⟨earlier, later, b, split, .inr builtBy, built⟩
  · rw [fail] at answered
    cases answered
  · rw [off] at answered
    rw [Except.ok.inj answered] at built
    exact here missing built
  · rw [full] at answered
    cases answered
  · rw [new] at answered
    rw [Except.ok.inj answered] at built
    exact here missing built

def touch (k : κ) (ks : List κ) : List κ := (ks.filter fun other => other ≠ k) ++ [k]

def recent (m : ℕ) (used : List κ) : List κ := used.dedup.rtake m

theorem dedup_concat (used : List κ) (k : κ) : (used ++ [k]).dedup = touch k used.dedup := by
  induction used with
  | nil => simp [touch]
  | cons first used ih =>
    rw [List.cons_append]
    by_cases again : first ∈ used
    · rw [List.dedup_cons_of_mem again, List.dedup_cons_of_mem (List.mem_append_left [k] again), ih]
    · rw [List.dedup_cons_of_notMem again]
      by_cases same : first = k
      · rw [List.dedup_cons_of_mem (by simp [same]), ih]
        simp [touch, same]
      · rw [List.dedup_cons_of_notMem (by simp [again, same]), ih]
        simp [touch, same]

omit [DecidableEq κ] in
theorem rtake_append {m : ℕ} {front back : List κ} (enough : m ≤ back.length) :
    (front ++ back).rtake m = back.rtake m := by
  rw [List.rtake, List.rtake, List.length_append, List.drop_append,
    List.drop_eq_nil_of_le (by omega), List.nil_append]
  congr 1
  omega

omit [DecidableEq κ] in
theorem rtake_of_length_le {m : ℕ} {ks : List κ} (short : ks.length ≤ m) : ks.rtake m = ks := by
  rw [List.rtake, Nat.sub_eq_zero_of_le short, List.drop_zero]

theorem length_touch {k : κ} {ks : List κ} (distinct : ks.Nodup) :
    ks.length ≤ (touch k ks).length := by
  have one := List.length_eq_length_filter_add (l := ks) fun other => decide (other ≠ k)
  have same : ks.filter (fun other => !decide (other ≠ k)) = ks.filter (· == k) :=
    List.filter_congr fun other _ => by by_cases is : other = k <;> simp [is]
  have once := List.nodup_iff_count_le_one.mp distinct k
  rw [List.count_eq_length_filter] at once
  rw [same] at one
  rw [touch, List.length_append, List.length_singleton]
  omega

theorem rtake_touch (m : ℕ) (k : κ) {ks : List κ} (distinct : ks.Nodup) :
    (touch k ks).rtake m = (touch k (ks.rtake m)).rtake m := by
  rcases Nat.le_total ks.length m with short | long
  · rw [rtake_of_length_le short]
  · have kept : (ks.rtake m).Nodup := distinct.sublist (List.drop_sublist _ _)
    have full : (ks.rtake m).length = m := by
      rw [List.rtake, List.length_drop]
      omega
    have parts : touch k ks =
        (ks.take (ks.length - m)).filter (fun other => other ≠ k) ++ touch k (ks.rtake m) := by
      rw [touch, touch, List.rtake, ← List.append_assoc, ← List.filter_append,
        List.take_append_drop]
    rw [parts, rtake_append]
    exact full.symm.trans_le (length_touch kept)

theorem recent_concat (m : ℕ) (used : List κ) (k : κ) :
    recent m (used ++ [k]) = (touch k (recent m used)).rtake m := by
  rw [recent, dedup_concat, rtake_touch m k (List.nodup_dedup used)]
  rfl

theorem length_recent_le (m : ℕ) (used : List κ) : (recent m used).length ≤ m := by
  rw [recent, List.rtake, List.length_drop]
  omega

theorem keys_moveToEnd {k : κ} {entries : Entries κ ν} (there : k ∈ entries.map Prod.fst)
    (distinct : (entries.map Prod.fst).Nodup) :
    (moveToEnd k entries).map Prod.fst = touch k (entries.map Prod.fst) := by
  have one : (entries.filter fun e => e.1 = k).map Prod.fst = [k] := by
    have ends : (entries.map Prod.fst).filter (· == k) = [k] := by
      rw [List.filter_beq, List.count_eq_one_of_mem distinct there]
      rfl
    rw [← ends, List.filter_map]
    congr 1
  rw [moveToEnd, touch, List.map_append, one, List.filter_map]
  rfl

theorem keys_insert (k : κ) (v : ν) {entries : Entries κ ν}
    (distinct : (entries.map Prod.fst).Nodup) :
    (moveToEnd k (assign k v entries)).map Prod.fst = touch k (entries.map Prod.fst) := by
  have there : k ∈ (assign k v entries).map Prod.fst := by
    have found := lookup_assign k k v entries
    rw [if_pos rfl] at found
    exact List.mem_map.mpr ⟨(k, v), mem_of_lookup found, rfl⟩
  rw [keys_moveToEnd there (nodup_assign k v distinct)]
  rcases keys_assign k v entries with kept | ⟨-, added⟩
  · rw [kept]
  · rw [added]
    simp [touch]

theorem access_keys {d : Design σ α κ ν ε} (on : d.enabled = true) (bound : 0 ≤ d.maxEntries)
    (source : σ) {entries : Entries κ ν} (a : α) (distinct : (entries.map Prod.fst).Nodup)
    (within : entries.length ≤ d.maxEntries.toNat) :
    (∃ v, (access d source entries a).1 = .ok v ∧ (access d source entries a).2.map Prod.fst =
      (touch (d.key a) (entries.map Prod.fst)).rtake d.maxEntries.toNat) ∨
    ∃ e, d.build source a = .error e ∧ access d source entries a = (.error e, entries) := by
  rcases access_cases d source entries a with
    ⟨v, -, found, hit⟩ | ⟨-, ⟨e, failed, fail⟩ | ⟨v, -, off, -⟩ | ⟨v, -, -, negative, -⟩ |
      ⟨v, rest, -, -, kept, new⟩⟩
  · refine .inl ⟨v, by rw [hit], ?_⟩
    have there : d.key a ∈ entries.map Prod.fst := List.mem_map.mpr ⟨_, mem_of_lookup found, rfl⟩
    have moved := keys_moveToEnd there distinct
    rw [hit, ← moved, rtake_of_length_le]
    rw [List.length_map, (moveToEnd_perm (d.key a) entries).length_eq]
    exact within
  · exact .inr ⟨e, failed, fail⟩
  · rw [on] at off
    cases off
  · exact absurd bound (Int.not_le.mpr negative)
  · refine .inl ⟨v, by rw [new], ?_⟩
    rw [new, evict_eq kept, ← keys_insert (d.key a) v distinct, List.rtake, List.map_drop,
      List.length_map]

def used (d : Design σ α κ ν ε) (w : World σ κ ν) : List (Event σ α) → List κ
  | [] => []
  | .change f :: events => used d (step d w (.change f)) events
  | .ask a :: events =>
    match (access d w.source w.entries a).1 with
    | .ok _ => d.key a :: used d (step d w (.ask a)) events
    | .error _ => used d (step d w (.ask a)) events

theorem used_snoc (d : Design σ α κ ν ε) (w : World σ κ ν) (events : List (Event σ α))
    (e : Event σ α) :
    used d w (events ++ [e]) = used d w events ++ used d (run d w events) [e] := by
  induction events generalizing w with
  | nil => rfl
  | cons first events ih =>
    have moved : run d w (first :: events) = run d (step d w first) events := rfl
    rw [List.cons_append, moved]
    cases first with
    | change f => exact ih _
    | ask a =>
      rw [used, used, ih]
      cases (access d w.source w.entries a).1 <;> rfl

theorem keys_run {d : Design σ α κ ν ε} (on : d.enabled = true) (bound : 0 ≤ d.maxEntries)
    (source : σ) (events : List (Event σ α)) :
    (run d ⟨source, []⟩ events).entries.map Prod.fst =
      recent d.maxEntries.toNat (used d ⟨source, []⟩ events) := by
  induction events using List.reverseRecOn with
  | nil => simp [run, used, recent]
  | append_singleton events e ih =>
    rw [run_snoc, used_snoc]
    cases e with
    | change f =>
      rw [used, used, List.append_nil]
      exact ih
    | ask a =>
      have distinct := nodup_run d source events
      have within : (run d ⟨source, []⟩ events).entries.length ≤ d.maxEntries.toNat := by
        rw [← List.length_map, ih]
        exact length_recent_le _ _
      rcases access_keys on bound (run d ⟨source, []⟩ events).source a distinct within with
        ⟨v, answered, keys⟩ | ⟨e, -, fail⟩
      · rw [used, answered]
        dsimp only
        rw [used, recent_concat, ← ih]
        exact keys
      · rw [used, fail]
        dsimp only
        rw [used, List.append_nil, step, fail]
        exact ih

theorem access_negative {d : Design σ α κ ν ε} (on : d.enabled = true)
    (negative : d.maxEntries < 0) (source : σ) (a : α) :
    ∃ e, access d source [] a = (.error e, []) := by
  rcases access_cases d source [] a with
    ⟨v, -, found, -⟩ | ⟨-, ⟨e, -, fail⟩ | ⟨v, -, off, -⟩ | ⟨v, -, -, -, full⟩ |
      ⟨v, rest, -, -, kept, -⟩⟩
  · cases found
  · exact ⟨e, fail⟩
  · rw [on] at off
    cases off
  · exact ⟨d.exhausted, full⟩
  · rw [evict, if_pos negative] at kept
    cases kept

theorem run_negative {d : Design σ α κ ν ε} (on : d.enabled = true) (negative : d.maxEntries < 0)
    (source : σ) (events : List (Event σ α)) : (run d ⟨source, []⟩ events).entries = [] := by
  induction events using List.reverseRecOn with
  | nil => rfl
  | append_singleton events e ih =>
    rw [run_snoc]
    cases e with
    | change f => exact ih
    | ask a =>
      obtain ⟨e, failed⟩ := access_negative on negative (run d ⟨source, []⟩ events).source a
      rw [step, ih, failed]

theorem access_failed {d : Design σ α κ ν ε} (source : σ) {a : α} {e : ε}
    (failed : d.build source a = .error e) : access d source [] a = (.error e, []) := by
  unfold access
  rw [lookup, ite_self, failed]

end KnowledgeCompanion.ReadThroughCache
