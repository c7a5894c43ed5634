import Mathlib.Tactic.Common
import Mathlib.Data.List.Nodup

/-! Writing rows by key: a row takes the place of the one with its key, or is new. -/

namespace KnowledgeCompanion.KeyedUpsert

variable {α κ : Type*} [DecidableEq κ] (key : α → κ)

def put (rows : List α) (r : α) : List α :=
  if key r ∈ rows.map key then rows.map fun old => if key old = key r then r else old
  else rows ++ [r]

def putAll (rows : List α) (rs : List α) : List α := rs.foldl (put key) rows

variable {key}

theorem mem_put (rows : List α) (r : α) : r ∈ put key rows r := by
  unfold put
  split
  · rename_i there
    obtain ⟨old, mem, same⟩ := List.mem_map.mp there
    exact List.mem_map.mpr ⟨old, mem, if_pos same⟩
  · simp

theorem mem_put_of_ne {rows : List α} {r s : α} (mem : s ∈ rows) (ne : key s ≠ key r) :
    s ∈ put key rows r := by
  unfold put
  split
  · exact List.mem_map.mpr ⟨s, mem, if_neg ne⟩
  · exact List.mem_append_left _ mem

theorem mem_putAll_of_ne {rows rs : List α} {s : α} (mem : s ∈ rows)
    (ne : ∀ r ∈ rs, key s ≠ key r) : s ∈ putAll key rows rs := by
  induction rs generalizing rows with
  | nil => exact mem
  | cons r rs ih =>
    have still : s ∈ put key rows r := mem_put_of_ne mem (ne r List.mem_cons_self)
    exact ih still fun r' later => ne r' (List.mem_cons_of_mem r later)

theorem mem_putAll {rows rs : List α} {r : α} (distinct : (rs.map key).Nodup) (mem : r ∈ rs) :
    r ∈ putAll key rows rs := by
  induction rs generalizing rows with
  | nil => simp at mem
  | cons first rs ih =>
    obtain ⟨fresh, rest⟩ := List.nodup_cons.mp distinct
    rcases List.mem_cons.mp mem with here | later
    · rw [here]
      have new (other : α) (there : other ∈ rs) : key first ≠ key other := by
        intro same
        apply fresh
        rw [same]
        exact List.mem_map_of_mem there
      change first ∈ putAll key (put key rows first) rs
      exact mem_putAll_of_ne (mem_put rows first) new
    · exact ih rest later

theorem mem_putAll_cases {rows rs : List α} {s : α} (mem : s ∈ putAll key rows rs) :
    s ∈ rs ∨ (s ∈ rows ∧ ∀ r ∈ rs, key s ≠ key r) := by
  induction rs generalizing rows with
  | nil => exact .inr ⟨mem, nofun⟩
  | cons r rs ih =>
    rcases ih mem with later | ⟨there, apart⟩
    · exact .inl (List.mem_cons_of_mem r later)
    · have here : s = r ∨ (s ∈ rows ∧ key s ≠ key r) := by
        unfold put at there
        split at there
        · obtain ⟨old, row, same⟩ := List.mem_map.mp there
          by_cases match_ : key old = key r
          · rw [if_pos match_] at same
            exact .inl same.symm
          · rw [if_neg match_] at same
            exact .inr ⟨same ▸ row, same ▸ match_⟩
        · rename_i fresh
          rcases List.mem_append.mp there with row | new
          · refine .inr ⟨row, fun same => fresh ?_⟩
            rw [← same]
            exact List.mem_map_of_mem row
          · exact .inl (List.mem_singleton.mp new)
      rcases here with first | ⟨row, ne⟩
      · exact .inl (by simp [first])
      · refine .inr ⟨row, fun r' written => ?_⟩
        rcases List.mem_cons.mp written with rfl | later
        · exact ne
        · exact apart r' later

theorem putAll_append {rows front rs : List α}
    (apart : ∀ s ∈ front, ∀ r ∈ rs, key s ≠ key r) :
    putAll key (front ++ rows) rs = front ++ putAll key rows rs := by
  induction rs generalizing rows with
  | nil => rfl
  | cons r rs ih =>
    have ne (s : α) (mem : s ∈ front) : key s ≠ key r := apart s mem r List.mem_cons_self
    have one : put key (front ++ rows) r = front ++ put key rows r := by
      have unchanged : front.map (fun old => if key old = key r then r else old) = front := by
        rw [List.map_congr_left fun s mem => if_neg (ne s mem), List.map_id']
      have none : key r ∉ front.map key := by
        intro mem
        obtain ⟨s, row, same⟩ := List.mem_map.mp mem
        exact ne s row same
      have both : key r ∈ (front ++ rows).map key ↔ key r ∈ rows.map key := by
        rw [List.map_append, List.mem_append, or_iff_right none]
      by_cases there : key r ∈ rows.map key
      · rw [put, put, if_pos (both.mpr there), if_pos there, List.map_append, unchanged]
      · rw [put, put, if_neg (mt both.mp there), if_neg there, List.append_assoc]
    have rest := @ih (put key rows r) fun s mem r' later =>
      apart s mem r' (List.mem_cons_of_mem r later)
    rw [← one] at rest
    exact rest

theorem nodup_put {rows : List α} (r : α) (distinct : (rows.map key).Nodup) :
    ((put key rows r).map key).Nodup := by
  unfold put
  split
  · have same : (rows.map fun old => if key old = key r then r else old).map key =
        rows.map key := by
      rw [List.map_map]
      refine List.map_congr_left fun old _ => ?_
      simp only [Function.comp_apply]
      split
      · rename_i same
        exact same.symm
      · rfl
    rw [same]
    exact distinct
  · rename_i fresh
    rw [List.map_append, List.nodup_append]
    refine ⟨distinct, List.nodup_singleton _, fun k mem k' one => ?_⟩
    rw [List.mem_singleton.mp one]
    intro same
    exact fresh (same ▸ mem)

theorem nodup_putAll {rows rs : List α} (distinct : (rows.map key).Nodup) :
    ((putAll key rows rs).map key).Nodup := by
  induction rs generalizing rows with
  | nil => exact distinct
  | cons r rs ih => exact ih (nodup_put r distinct)

theorem putAll_fresh {rows rs : List α} (fresh : ∀ s ∈ rows, ∀ r ∈ rs, key s ≠ key r)
    (distinct : (rs.map key).Nodup) : putAll key rows rs = rows ++ rs := by
  induction rs generalizing rows with
  | nil => exact (List.append_nil rows).symm
  | cons r rs ih =>
    obtain ⟨first, rest⟩ := List.nodup_cons.mp distinct
    have added : put key rows r = rows ++ [r] := by
      refine if_neg fun mem => ?_
      obtain ⟨s, row, same⟩ := List.mem_map.mp mem
      exact fresh s row r List.mem_cons_self same
    have later : ∀ s ∈ rows ++ [r], ∀ r' ∈ rs, key s ≠ key r' := by
      intro s mem r' later
      rcases List.mem_append.mp mem with row | one
      · exact fresh s row r' (List.mem_cons_of_mem r later)
      · rw [List.mem_singleton.mp one]
        intro same
        exact first (same ▸ List.mem_map_of_mem later)
    have tail := @ih (rows ++ [r]) later rest
    change putAll key (put key rows r) rs = rows ++ r :: rs
    rw [added, tail, List.append_assoc]
    rfl

end KnowledgeCompanion.KeyedUpsert
