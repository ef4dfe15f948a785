import TileCost.Json.Numeral
import TileCost.Proofs.Outcome

/-! The extent of a number in a JSON text. No mark closes a number: it is over where
the text goes on with something that cannot belong to it. What stands there, and
what comes later, changes nothing in it. -/
namespace TileCost.Json
open Outcome (bindOk mapOk)

def Ends : List Char → Prop
  | [] => True
  | c :: _ => c.isDigit = false ∧ c ≠ '.' ∧ isExponentMark c = false

theorem startsDigitContinued {rest more} (stopped : startsDigit rest = false)
    (ends : rest = [] → Ends more) : startsDigit (rest ++ more) = false := by
  cases rest with
  | cons c rest => exact stopped
  | nil =>
      cases more with
      | nil => rfl
      | cons c more => exact (ends rfl).1

@[simp] theorem runDigit {c : Char} (digit : c.isDigit = true) (text : List Char) :
    run (c :: text) = (c :: (run text).1, (run text).2) := by
  simp [run, List.span_eq_takeWhile_dropWhile, digit]

@[simp] theorem runOther {text : List Char} (other : startsDigit text = false) : run text = ([], text) := by
  cases text with
  | nil => rfl
  | cons c text =>
      have digit : c.isDigit = false := other
      simp [run, List.span_eq_takeWhile_dropWhile, digit]

theorem runContinued {text digits rest more : List Char} (taken : run text = (digits, rest))
    (ends : rest = [] → Ends more) : run (text ++ more) = (digits, rest ++ more) := by
  induction text generalizing digits with
  | nil =>
      cases taken
      exact runOther (startsDigitContinued rfl ends)
  | cons c text ih =>
      cases digit : c.isDigit with
      | true =>
          rw [runDigit digit] at taken
          obtain ⟨rfl, same⟩ := Prod.mk.inj taken
          have others : run text = ((run text).1, rest) := Prod.ext rfl same
          simp [digit, ih others]
      | false =>
          have other : startsDigit (c :: text) = false := digit
          rw [runOther other] at taken
          cases taken
          exact runOther (startsDigitContinued other ends)

theorem wholePartContinued {ended digits} {text rest more : List Char}
    (ok : wholePart ended text = .ok (digits, rest)) (ends : rest = [] → Ends more) :
    wholePart ended (text ++ more) = .ok (digits, rest ++ more) := by
  unfold wholePart at ok
  split at ok
  · contradiction
  · split at ok
    · contradiction
    · rename_i stopped
      cases ok
      simp [wholePart, startsDigitContinued (by simpa using stopped) ends]
  · split at ok
    · rename_i digit
      have taken := runContinued (Except.ok.inj ok) ends
      simpa [wholePart, digit] using taken
    · contradiction

theorem digitsAfterRun {ended} {text : List Char} (digit : startsDigit text = true) :
    digitsAfter ended text = .ok (run text) := by
  unfold digitsAfter
  exact if_pos digit

theorem digitsAfterExact {ended digits} {text rest : List Char} :
    digitsAfter ended text = .ok (digits, rest) ↔
      startsDigit text = true ∧ run text = (digits, rest) := by
  cases digit : startsDigit text with
  | true => simp [digitsAfterRun digit]
  | false =>
      cases text with
      | nil => simp [digitsAfter, startsDigit]
      | cons c text => simp [digitsAfter, digit]

theorem digitsAfterContinued {ended digits} {text rest more : List Char}
    (ok : digitsAfter ended text = .ok (digits, rest)) (ends : rest = [] → Ends more) :
    digitsAfter ended (text ++ more) = .ok (digits, rest ++ more) := by
  obtain ⟨digit, taken⟩ := digitsAfterExact.mp ok
  refine digitsAfterExact.mpr ⟨?_, runContinued taken ends⟩
  cases text with
  | nil => contradiction
  | cons c text => exact digit

theorem fractionPartAbsent {ended} {c : Char} (other : c ≠ '.') (text : List Char) :
    fractionPart ended (c :: text) = .ok (none, c :: text) := by
  unfold fractionPart
  split
  · rename_i same
    exact absurd (List.cons.inj same).1 other
  · rfl

theorem fractionPartContinued {ended fraction} {text rest more : List Char}
    (ok : fractionPart ended text = .ok (fraction, rest)) (ends : rest = [] → Ends more) :
    fractionPart ended (text ++ more) = .ok (fraction, rest ++ more) := by
  cases text with
  | nil =>
      cases ok
      cases more with
      | nil => rfl
      | cons c more => exact fractionPartAbsent (ends rfl).2.1 more
  | cons c text =>
      by_cases point : c = '.'
      · subst point
        simp only [fractionPart, List.cons_append, bindOk] at ok ⊢
        obtain ⟨⟨digits, tail⟩, taken, same⟩ := ok
        cases same
        exact ⟨_, digitsAfterContinued taken ends, rfl⟩
      · rw [fractionPartAbsent point] at ok
        cases ok
        exact fractionPartAbsent point _

@[simp] theorem exponentPartAbsent {ended} {c : Char} (other : isExponentMark c = false)
    (text : List Char) : exponentPart ended (c :: text) = .ok (none, c :: text) := by
  simp [exponentPart, other]

theorem exponentPartMarked {ended} {c : Char} (mark : isExponentMark c = true) (text : List Char) :
    exponentPart ended (c :: text) = do
      let (digits, rest) ← digitsAfter ended (exponentSign text).2
      return (some ((exponentSign text).1, digits), rest) := by
  simp only [exponentPart, mark, if_true]

theorem exponentSignContinued {text : List Char} (digits : (exponentSign text).2 ≠ [])
    (more : List Char) :
    exponentSign (text ++ more) = ((exponentSign text).1, (exponentSign text).2 ++ more) := by
  cases text with
  | nil => contradiction
  | cons c text =>
      by_cases plus : c = '+'
      · subst plus
        rfl
      · by_cases minus : c = '-'
        · subst minus
          rfl
        · simp [exponentSign, plus, minus]

theorem exponentPartContinued {ended exponent} {text rest more : List Char}
    (ok : exponentPart ended text = .ok (exponent, rest)) (ends : rest = [] → Ends more) :
    exponentPart ended (text ++ more) = .ok (exponent, rest ++ more) := by
  cases text with
  | nil =>
      cases ok
      cases more with
      | nil => rfl
      | cons c more => exact exponentPartAbsent (ends rfl).2.2 more
  | cons c text =>
      cases mark : isExponentMark c with
      | true =>
          rw [List.cons_append]
          rw [exponentPartMarked mark] at ok ⊢
          simp only [bindOk] at ok ⊢
          obtain ⟨⟨digits, tail⟩, taken, same⟩ := ok
          cases same
          have signed : (exponentSign text).2 ≠ [] := by
            intro none
            rw [none] at taken
            contradiction
          rw [exponentSignContinued signed]
          exact ⟨_, digitsAfterContinued taken ends, rfl⟩
      | false =>
          rw [exponentPartAbsent mark] at ok
          cases ok
          exact exponentPartAbsent mark _

theorem minusContinued {text : List Char} (nonempty : text ≠ []) (more : List Char) :
    minus (text ++ more) = ((minus text).1, (minus text).2 ++ more) := by
  cases text with
  | nil => contradiction
  | cons c text =>
      by_cases sign : c = '-'
      · subst sign
        rfl
      · simp [minus, sign]

theorem numeralContinued {ended n} {text rest more : List Char}
    (ok : numeral ended text = .ok (n, rest)) (ends : rest = [] → Ends more) :
    numeral ended (text ++ more) = .ok (n, rest ++ more) := by
  simp only [numeral, bindOk] at ok ⊢
  obtain ⟨⟨whole, t⟩, one, ⟨fraction, u⟩, two, ⟨exponent, v⟩, three, same⟩ := ok
  cases same
  dsimp only at one two three
  have texts : text ≠ [] := by
    intro none
    subst none
    contradiction
  rw [minusContinued texts]
  refine ⟨_, wholePartContinued one ?_, _, fractionPartContinued two ?_, _,
    exponentPartContinued three ends, rfl⟩
  · intro none
    subst none
    cases two
    cases three
    exact ends rfl
  · intro none
    subst none
    cases three
    exact ends rfl

theorem realValuePlaceless {minus significand shift exponent x} {rest : List Char}
    (ok : realValue minus significand shift exponent rest = .ok x) (rest' : List Char) :
    realValue minus significand shift exponent rest' = .ok x := by
  unfold realValue at ok ⊢
  cases exponent with
  | none =>
      dsimp only at ok ⊢
      cases found : scaled 3 significand.toUInt64.toFloat shift with
      | none => simp [found] at ok
      | some y => simpa only [found] using ok
  | some parts =>
      obtain ⟨down, digits⟩ := parts
      dsimp only at ok ⊢
      cases small : smallExponent 0 digits with
      | ok value =>
          simp only [small] at ok ⊢
          split at ok
          · rename_i found
            simpa only [found] using ok
          · contradiction
      | error untaken =>
          simp only [small] at ok ⊢
          split at ok
          · contradiction
          · rename_i vanished
            rwa [if_neg vanished]

theorem valuePlaceless {n : Numeral} {rest : List Char} {x} (ok : n.value rest = .ok x)
    (rest' : List Char) : n.value rest' = .ok x := by
  unfold Numeral.value at ok ⊢
  dsimp only at ok ⊢
  split at ok
  · exact ok
  · obtain ⟨y, real, same⟩ := mapOk.mp ok
    exact mapOk.mpr ⟨y, realValuePlaceless real rest', same⟩

theorem numberContinued {value} {text rest more : List Char} (ok : number text = .ok (value, rest))
    (ends : rest = [] → Ends more) : number (text ++ more) = .ok (value, rest ++ more) := by
  simp only [number, bindOk] at ok ⊢
  obtain ⟨⟨n, tail⟩, taken, x, known, same⟩ := ok
  cases same
  exact ⟨_, numeralContinued taken ends, _, valuePlaceless known _, rfl⟩

theorem skipNumberContinued {text rest more : List Char} (ok : skipNumber text = .ok rest)
    (ends : rest = [] → Ends more) : skipNumber (text ++ more) = .ok (rest ++ more) := by
  obtain ⟨⟨n, tail⟩, taken, same⟩ := mapOk.mp ok
  subst same
  exact mapOk.mpr ⟨_, numeralContinued taken ends, rfl⟩

end TileCost.Json
