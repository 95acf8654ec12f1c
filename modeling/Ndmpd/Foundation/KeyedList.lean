import Mathlib.Data.List.Nodup
import Mathlib.Logic.Function.Basic

/-!
# Lists of keyed values as finite maps

A list of pairs that is updated in place where the key is present and extended at its
end where it is not (`upsert`) holds a map: one pair for each key of the map, with the
map's value (`Holds`). Updating the list updates the map at one key (`Holds.upsert`), and
the keys keep their order (`Holds.keys_upsert`).
-/

namespace Foundation

universe u v

variable {κ : Type u} {ν : Type v} [DecidableEq κ]

/-- Replace the value of every pair with the key, or append a pair when there is none. -/
def upsert (key : κ) (value : ν) (entries : List (κ × ν)) : List (κ × ν) :=
  entries.map (fun entry => if entry.1 = key then (key, value) else entry) ++
    if entries.any (fun entry => entry.1 = key) then [] else [(key, value)]

/-- The pairs are those of a map, each of them once. -/
structure Holds (entries : List (κ × ν)) (map : κ → Option ν) : Prop where
  nodup : (entries.map Prod.fst).Nodup
  mem_iff : ∀ key value, (key, value) ∈ entries ↔ map key = some value

namespace Holds

omit [DecidableEq κ] in
/-- The empty list holds the empty map. -/
theorem empty : Holds ([] : List (κ × ν)) fun _ => none :=
  ⟨List.nodup_nil, fun _ _ => ⟨nofun, nofun⟩⟩

theorem any_key_iff {entries : List (κ × ν)} {key : κ} :
    entries.any (fun entry => entry.1 = key) = true ↔ key ∈ entries.map Prod.fst := by
  rw [List.any_eq_true, List.mem_map]
  constructor
  · rintro ⟨entry, listed, same⟩
    exact ⟨entry, listed, of_decide_eq_true same⟩
  · rintro ⟨entry, listed, same⟩
    exact ⟨entry, listed, decide_eq_true same⟩

/-- The keys stay in their order; a new one comes last. -/
theorem keys_upsert (key : κ) (value : ν) (entries : List (κ × ν)) :
    (upsert key value entries).map Prod.fst =
      entries.map Prod.fst ++ if key ∈ entries.map Prod.fst then [] else [key] := by
  have kept : (entries.map fun entry => if entry.1 = key then (key, value) else entry).map
      Prod.fst = entries.map Prod.fst := by
    rw [List.map_map]
    apply List.map_congr_left
    intro entry _
    by_cases same : entry.1 = key
    · rw [Function.comp_apply, if_pos same, same]
    · rw [Function.comp_apply, if_neg same]
  rw [upsert, List.map_append, kept]
  by_cases present : key ∈ entries.map Prod.fst
  · rw [if_pos (any_key_iff.mpr present), if_pos present, List.map_nil]
  · rw [if_neg fun found => present (any_key_iff.mp found), if_neg present, List.map_singleton]

/-- Updating the list updates the map at the key. -/
theorem upsert {entries : List (κ × ν)} {map : κ → Option ν} (holds : Holds entries map)
    (key : κ) (value : ν) :
    Holds (upsert key value entries) (Function.update map key (some value)) where
  nodup := by
    rw [keys_upsert]
    by_cases present : key ∈ entries.map Prod.fst
    · rw [if_pos present, List.append_nil]
      exact holds.nodup
    · rw [if_neg present]
      exact List.nodup_append.mpr ⟨holds.nodup, List.nodup_singleton key, by
        rintro other listed _ single rfl
        exact present (List.mem_singleton.mp single ▸ listed)⟩
  mem_iff := by
    intro other found
    rw [Foundation.upsert, List.mem_append, List.mem_map]
    by_cases same : other = key
    · subst same
      rw [Function.update_self, Option.some_inj]
      constructor
      · rintro (⟨entry, listed, replaced⟩ | appended)
        · by_cases hit : entry.1 = other
          · rw [if_pos hit] at replaced
            exact congrArg Prod.snd replaced
          · rw [if_neg hit] at replaced
            exact absurd (congrArg Prod.fst replaced) hit
        · by_cases present : entries.any (fun entry => entry.1 = other) = true
          · rw [if_pos present] at appended
            cases appended
          · rw [if_neg present, List.mem_singleton] at appended
            exact (congrArg Prod.snd appended).symm
      · rintro rfl
        by_cases present : entries.any (fun entry => entry.1 = other) = true
        · obtain ⟨entry, listed, hit⟩ := List.any_eq_true.mp present
          exact .inl ⟨entry, listed, if_pos (of_decide_eq_true hit)⟩
        · rw [if_neg present]
          exact .inr (List.mem_singleton.mpr rfl)
    · rw [Function.update_of_ne same, ← holds.mem_iff]
      constructor
      · rintro (⟨entry, listed, kept⟩ | appended)
        · by_cases hit : entry.1 = key
          · rw [if_pos hit] at kept
            exact absurd (congrArg Prod.fst kept).symm same
          · rw [if_neg hit] at kept
            rwa [← kept]
        · by_cases present : entries.any (fun entry => entry.1 = key) = true
          · rw [if_pos present] at appended
            cases appended
          · rw [if_neg present, List.mem_singleton] at appended
            exact absurd (congrArg Prod.fst appended) same
      · intro listed
        exact .inl ⟨(other, found), listed, if_neg same⟩

end Holds

end Foundation
