import Ndmpd.Foundation.Wildcard
import Ndmpd.Tlm.Selection

/-!
# What `match` accepts

The rules over `match` give each pattern a language (`globLanguage`). At a star the code
tries the rest of the pattern at every place in front of the end of the string, so that it
goes wrong exactly where the rest of a pattern can only stand for the end
(`globMatch_iff`).
-/

namespace Ndmpd

open Foundation

/-- The rules of `match` for one character of a pattern. -/
def wildcard (byte : UInt8) : Wildcard UInt8 :=
  if byte = 42 then .any else if byte = 63 then .one else .letter byte

/-- The strings that a pattern stands for. -/
def globLanguage (patn : CString) : Language UInt8 := patternLanguage (patn.map wildcard)

theorem globMatch_iff_search (patn str : CString) :
    globMatch patn str = true ↔ str ∈ searchLanguage (patn.map wildcard) := by
  induction patn generalizing str with
  | nil => simp [globMatch, searchLanguage]
  | cons byte patn ih =>
      by_cases isAny : byte = 42
      · subst isAny
        change _ ↔ str ∈ searchLanguage (.any :: patn.map wildcard)
        cases patn with
        | nil => exact iff_of_true (by simp [globMatch]) (Set.mem_univ str)
        | cons next patn =>
            change _ ↔ str ∈ ⊤ * (searchLanguage (.map wildcard (next :: patn)) ⊓ nonempty)
            simp only [globMatch, mem_top_mul, mem_inf, ← ih, mem_nonempty, decide_eq_true_eq,
              List.any_eq_true, List.mem_tails, reduceCtorEq, false_or]
            exact exists_congr fun rest => and_congr Iff.rfl and_comm
      · by_cases isOne : byte = 63
        · subst isOne
          change _ ↔ str ∈ Wildcard.one.language * searchLanguage (patn.map wildcard)
          rw [Language.mem_mul]
          cases str with
          | nil => simp [globMatch]
          | cons first str =>
              simp only [globMatch, ih, mem_language_one]
              constructor
              · intro inside
                exact ⟨[first], rfl, str, inside, rfl⟩
              · rintro ⟨front, single, rest, inside, joined⟩
                obtain ⟨letter, rfl⟩ := List.length_eq_one_iff.mp single
                cases joined
                exact inside
        · have isLetter : wildcard byte = .letter byte := by
            rw [wildcard, if_neg isAny, if_neg isOne]
          rw [List.map_cons, isLetter]
          change _ ↔ str ∈ (Wildcard.letter byte).language * searchLanguage (patn.map wildcard)
          rw [Language.mem_mul]
          cases str with
          | nil => simp [globMatch]
          | cons first str =>
              simp only [globMatch, ih, mem_language_letter, decide_eq_true_eq]
              constructor
              · rintro ⟨rfl, inside⟩
                exact ⟨[first], rfl, str, inside, rfl⟩
              · rintro ⟨front, rfl, rest, inside, joined⟩
                cases joined
                exact ⟨rfl, inside⟩

/-- A pattern in front of its last stars. -/
def bareFront (patn : CString) : CString := patn.rdropWhile fun byte => byte = 42

theorem wildcard_eq_any {byte : UInt8} : wildcard byte = .any ↔ byte = 42 := by
  unfold wildcard
  split
  · next isAny => simp [isAny]
  · next notAny =>
      split
      · simp [notAny]
      · simp [notAny]

theorem bareFront_getLast? (patn : CString) :
    ((bareFront patn).map wildcard).getLast? ≠ some .any := by
  rw [List.getLast?_map]
  intro last
  obtain ⟨byte, isLast, isAny⟩ := Option.map_eq_some_iff.mp last
  have some_ : bareFront patn ≠ [] := by
    rintro empty
    rw [empty] at isLast
    cases isLast
  rw [List.getLast?_eq_some_getLast some_, Option.some_inj] at isLast
  apply List.rdropWhile_last_not _ patn some_
  rw [decide_eq_true_eq]
  exact isLast.trans (wildcard_eq_any.mp isAny)

/-- A pattern is its front and stars. -/
theorem exists_stars (patn : CString) :
    ∃ count, patn = bareFront patn ++ List.replicate count 42 := by
  refine ⟨(patn.rtakeWhile fun byte => byte = 42).length, ?_⟩
  have stars : patn.rtakeWhile (fun byte => byte = 42) =
      List.replicate (patn.rtakeWhile fun byte => byte = 42).length 42 := by
    apply List.eq_replicate_length.mpr
    intro byte listed
    have taken := List.mem_rtakeWhile_imp listed
    exact of_decide_eq_true taken
  rw [← stars]
  exact List.rdropWhile_append_rtakeWhile.symm

theorem twoStars_iff (patn : CString) {count : Nat}
    (split : patn = bareFront patn ++ List.replicate count 42) : [42, 42] <:+ patn ↔ 2 ≤ count := by
  have last : (bareFront patn).getLast? ≠ some 42 := by
    intro isStar
    apply bareFront_getLast? patn
    rw [List.getLast?_map, isStar]
    rfl
  constructor
  · rintro ⟨front, ends⟩
    rw [split] at ends
    rcases count with _ | _ | count
    · rw [List.replicate_zero, List.append_nil] at ends
      rw [← ends, List.getLast?_append_of_ne_nil _ (List.cons_ne_nil _ _)] at last
      exact absurd rfl last
    · have front_ : front ++ [42] = bareFront patn := by
        have joined : (front ++ [42]) ++ [42] = bareFront patn ++ [42] := by
          rw [List.append_assoc]
          exact ends
        exact (List.append_inj' joined rfl).1
      rw [← front_, List.getLast?_concat] at last
      exact absurd rfl last
    · exact Nat.le_add_left 2 count
  · intro two
    obtain ⟨more, rfl⟩ := Nat.exists_eq_add_of_le' two
    rw [split, List.replicate_add, ← List.append_assoc]
    exact List.suffix_append _ _

/-- `match` follows its rules on a pattern and a string exactly if it is not the case that
the pattern ends in two stars and the string, but no part at its front, is what stands in
front of the last stars. -/
theorem globMatch_iff (patn str : CString) :
    (globMatch patn str = true ↔ str ∈ globLanguage patn) ↔
      ¬ ([42, 42] <:+ patn ∧ str ∈ globLanguage (bareFront patn) ∧
        ∀ part, part <+: str → part ∈ globLanguage (bareFront patn) → part = str) := by
  obtain ⟨count, split⟩ := exists_stars patn
  rw [globMatch_iff_search, twoStars_iff patn split]
  have items : patn.map wildcard =
      (bareFront patn).map wildcard ++ List.replicate count .any := by
    conv_lhs => rw [split]
    rw [List.map_append, List.map_replicate]
    rfl
  unfold globLanguage
  rw [items]
  exact mem_searchLanguage_iff (bareFront_getLast? patn) count str

/-- Two stars do not match the empty string. -/
theorem twoStars_unmatched : ¬ ∀ patn str, globMatch patn str = true ↔ str ∈ globLanguage patn := by
  intro follows
  have inside : ([97] : CString) ∈ globLanguage [97, 42, 42] :=
    ⟨[97], rfl, [], ⟨[], Set.mem_univ _, [], ⟨[], Set.mem_univ _, [], rfl, rfl⟩, rfl⟩, rfl⟩
  have matched := (follows [97, 42, 42] [97]).mpr inside
  revert matched
  decide

end Ndmpd
