import TileCost.Json.Skip
import TileCost.Proofs.Json.Glyphs
import TileCost.Proofs.Json.Numerals
import TileCost.Proofs.Json.Punctuation

/-! The grammar of JSON: which texts are strings, numbers, and values of any kind, said
without a reader. Strings and numerals are taken from a text as the grammar has them. -/
namespace TileCost.Json
open Outcome (bindOk)

/-! Strings. -/

/- What stands behind an opening quote, up to the closing one. Codes may be any: whether
surrogates come in pairs matters only to a reader that wants the value. -/
inductive Letters : List Char → Prop where
  | close : Letters ['"']
  | plain {c letters} (quote : c ≠ '"') (slash : c ≠ '\\') (printing : isControl c = false)
      (rest : Letters letters) : Letters (c :: letters)
  | short {c decoded letters} (known : shortEscape c = some decoded) (rest : Letters letters) :
      Letters ('\\' :: c :: letters)
  | code {a b c d unit letters} (hex : codeUnit a b c d = some unit) (rest : Letters letters) :
      Letters ('\\' :: 'u' :: a :: b :: c :: d :: letters)

theorem shortNotCode {c decoded : Char} (known : shortEscape c = some decoded) : c ≠ 'u' := by
  rintro rfl
  contradiction

theorem skipStringComplete {letters} (all : Letters letters) (after : List Char) :
    skipString (letters ++ after) = .ok after := by
  induction all with
  | close => simp [skipString]
  | plain quote slash printing rest ih => simp [skipString, slash, printing, ih]
  | short known rest ih => simp [skipString, shortNotCode known, known, ih]
  | code hex rest ih => simp [skipString, hex, ih]

theorem skipStringSound {text rest} (ok : skipString text = .ok rest) :
    ∃ letters, Letters letters ∧ text = letters ++ rest := by
  fun_induction skipString text with
  | case2 tail =>
      cases ok
      exact ⟨_, .close, rfl⟩
  | case4 a b c d tail unit hex ih =>
      obtain ⟨letters, all, rfl⟩ := ih ok
      exact ⟨_, .code hex all, rfl⟩
  | case7 c tail _ _ decoded known ih =>
      obtain ⟨letters, all, rfl⟩ := ih ok
      exact ⟨_, .short known all, rfl⟩
  | case10 c tail quote _ _ lone slash printing ih =>
      obtain ⟨letters, all, rfl⟩ := ih ok
      exact ⟨_, .plain quote (lastNotSlash lone slash) (by simpa using printing) all, rfl⟩
  | _ => contradiction

theorem glyphLetters {text c letters} (one : Glyph text c) (rest : Letters letters) :
    Letters (text ++ letters) := by
  cases one with
  | plain quote slash printing => exact .plain quote slash printing rest
  | short known => exact .short known rest
  | code hex _ _ => exact .code hex rest
  | pair first _ _ second _ => exact .code first (.code second rest)

theorem quotedLetters {text value rest} (quoted : Quoted text value rest) :
    ∃ letters, Letters letters ∧ Quoted letters value [] ∧ text = letters ++ rest := by
  induction quoted with
  | close rest => exact ⟨_, .close, .close [], rfl⟩
  | @glyph text c tail value rest one others ih =>
      obtain ⟨letters, all, quoted, rfl⟩ := ih
      exact ⟨_, glyphLetters one all, .glyph one quoted, (List.append_assoc _ _ _).symm⟩

theorem quotedWhole {letters value} (quoted : Quoted letters value []) : Letters letters := by
  obtain ⟨letters, all, _, rfl⟩ := quotedLetters quoted
  rwa [List.append_nil]

def Digits (digits : List Char) : Prop := digits ≠ [] ∧ ∀ c ∈ digits, c.isDigit = true

inductive Whole : List Char → Prop where
  | zero : Whole ['0']
  | digits {c rest} (start : c ≠ '0') (all : Digits (c :: rest)) : Whole (c :: rest)

inductive Fraction : Option (List Char) → List Char → Prop where
  | absent : Fraction none []
  | digits {digits} (all : Digits digits) : Fraction (some digits) ('.' :: digits)

inductive Sign : Bool → List Char → Prop where
  | absent : Sign false []
  | plus : Sign false ['+']
  | minus : Sign true ['-']

inductive Exponent : Option (Bool × List Char) → List Char → Prop where
  | absent : Exponent none []
  | digits {mark negative sign digits} (marked : isExponentMark mark = true)
      (signed : Sign negative sign) (all : Digits digits) :
      Exponent (some (negative, digits)) (mark :: (sign ++ digits))

inductive Numeral.Spelled : Numeral → List Char → Prop where
  | parts {negative whole fraction exponent point power} (digits : Whole whole)
      (behind : Fraction fraction point) (scaled : Exponent exponent power) :
      Spelled ⟨negative, whole, fraction, exponent⟩
        ((if negative then ['-'] else []) ++ (whole ++ (point ++ power)))

def Stops : List Char → Prop
  | [] => True
  | c :: _ => c.isDigit = false ∧ c ≠ '.'

theorem stopsDigits {text} (stops : Stops text) : startsDigit text = false := by
  cases text with
  | nil => rfl
  | cons c text => exact stops.1

theorem endsStops {text} (ends : Ends text) : Stops text := by
  cases text with
  | nil => trivial
  | cons c text => exact ⟨ends.1, ends.2.1⟩

theorem digitsStart {digits} (all : Digits digits) (more : List Char) :
    startsDigit (digits ++ more) = true := by
  cases digits with
  | nil => exact absurd rfl all.1
  | cons c digits => exact all.2 c List.mem_cons_self

theorem runTaken {digits more : List Char} (all : ∀ c ∈ digits, c.isDigit = true)
    (stopped : startsDigit more = false) : run (digits ++ more) = (digits, more) := by
  induction digits with
  | nil => exact runOther stopped
  | cons c digits ih =>
      obtain ⟨digit, others⟩ := List.forall_mem_cons.mp all
      simp [digit, ih others]

theorem digitsAfterComplete {ended} {digits more : List Char} (all : Digits digits)
    (stopped : startsDigit more = false) :
    digitsAfter ended (digits ++ more) = .ok (digits, more) :=
  digitsAfterExact.mpr ⟨digitsStart all more, runTaken all.2 stopped⟩

theorem wholePartComplete {ended} {whole more : List Char} (digits : Whole whole)
    (stopped : startsDigit more = false) :
    wholePart ended (whole ++ more) = .ok (whole, more) := by
  cases digits with
  | zero => simp [wholePart, stopped]
  | @digits c rest start all =>
      have taken := runTaken all.2 stopped
      have digit : c.isDigit = true := all.2 c List.mem_cons_self
      rw [List.cons_append] at taken ⊢
      simp [wholePart, digit, taken]

theorem fractionPartComplete {ended fraction} {point more : List Char}
    (behind : Fraction fraction point) (stops : Stops more) :
    fractionPart ended (point ++ more) = .ok (fraction, more) := by
  cases behind with
  | absent =>
      cases more with
      | nil => rfl
      | cons c more => exact fractionPartAbsent stops.2 more
  | digits all =>
      simp only [fractionPart, List.cons_append, bindOk]
      exact ⟨_, digitsAfterComplete all (stopsDigits stops), rfl⟩

theorem exponentSignComplete {negative sign digits} (signed : Sign negative sign)
    (all : Digits digits) (more : List Char) :
    exponentSign (sign ++ digits ++ more) = (negative, digits ++ more) := by
  cases signed with
  | plus => rfl
  | minus => rfl
  | absent =>
      have digit := digitsStart all more
      unfold exponentSign
      split
      · rename_i same
        rw [List.nil_append] at same
        rw [same] at digit
        contradiction
      · rename_i same
        rw [List.nil_append] at same
        rw [same] at digit
        contradiction
      · rfl

theorem exponentPartComplete {ended exponent} {power more : List Char}
    (scaled : Exponent exponent power) (ends : Ends more) :
    exponentPart ended (power ++ more) = .ok (exponent, more) := by
  cases scaled with
  | absent =>
      cases more with
      | nil => rfl
      | cons c more => exact exponentPartAbsent ends.2.2 more
  | digits marked signed all =>
      rw [List.cons_append, exponentPartMarked marked, exponentSignComplete signed all]
      simp only [bindOk]
      exact ⟨_, digitsAfterComplete all (stopsDigits (endsStops ends)), rfl⟩

theorem exponentMark {c : Char} (mark : isExponentMark c = true) : c = 'e' ∨ c = 'E' := by
  simpa [isExponentMark] using mark

theorem exponentStops {exponent} {power more : List Char} (scaled : Exponent exponent power)
    (ends : Ends more) : Stops (power ++ more) := by
  cases scaled with
  | absent => exact endsStops ends
  | digits marked signed all =>
      rcases exponentMark marked with rfl | rfl
      · exact ⟨rfl, by decide⟩
      · exact ⟨rfl, by decide⟩

theorem fractionStops {fraction} {point more : List Char} (behind : Fraction fraction point)
    (stops : Stops more) : startsDigit (point ++ more) = false := by
  cases behind with
  | absent => exact stopsDigits stops
  | digits all => rfl

theorem wholeStart {whole} (digits : Whole whole) :
    ∃ c rest, whole = c :: rest ∧ c.isDigit = true := by
  cases digits with
  | zero => exact ⟨'0', [], rfl, rfl⟩
  | @digits c rest start all => exact ⟨c, rest, rfl, all.2 c List.mem_cons_self⟩

theorem minusComplete {whole} (digits : Whole whole) (negative : Bool) (more : List Char) :
    minus ((if negative then ['-'] else []) ++ (whole ++ more)) = (negative, whole ++ more) := by
  obtain ⟨c, rest, rfl, digit⟩ := wholeStart digits
  cases negative with
  | true => rfl
  | false =>
      have other : c ≠ '-' := by
        rintro rfl
        contradiction
      simp [minus, other]

theorem numeralComplete {n : Numeral} {text after : List Char} (spelled : n.Spelled text)
    (ends : Ends after) (ended : Cause) : numeral ended (text ++ after) = .ok (n, after) := by
  cases spelled with
  | @parts negative whole fraction exponent point power digits behind scaled =>
      have stops := exponentStops scaled ends
      simp only [List.append_assoc, numeral, bindOk, minusComplete digits]
      exact ⟨_, wholePartComplete digits (fractionStops behind stops), _,
        fractionPartComplete behind stops, _, exponentPartComplete scaled ends, rfl⟩

theorem runSound {text digits rest : List Char} (taken : run text = (digits, rest)) :
    (∀ c ∈ digits, c.isDigit = true) ∧ text = digits ++ rest := by
  rw [run, List.span_eq_takeWhile_dropWhile] at taken
  cases taken
  exact ⟨fun _ member => List.mem_takeWhile_imp member, (List.takeWhile_append_dropWhile).symm⟩

theorem digitsAfterSound {ended} {text digits rest : List Char}
    (ok : digitsAfter ended text = .ok (digits, rest)) :
    Digits digits ∧ text = digits ++ rest := by
  obtain ⟨start, taken⟩ := digitsAfterExact.mp ok
  obtain ⟨all, same⟩ := runSound taken
  refine ⟨⟨?_, all⟩, same⟩
  rintro rfl
  cases text with
  | nil => simp [startsDigit] at start
  | cons c text =>
      rw [runDigit (start : c.isDigit = true)] at taken
      cases taken

theorem wholePartSound {ended} {text whole rest : List Char}
    (ok : wholePart ended text = .ok (whole, rest)) : Whole whole ∧ text = whole ++ rest := by
  unfold wholePart at ok
  split at ok
  · contradiction
  · split at ok
    · contradiction
    · cases ok
      exact ⟨.zero, rfl⟩
  · rename_i c tail zero
    split at ok
    · rename_i digit
      have taken := Except.ok.inj ok
      obtain ⟨all, same⟩ := runSound taken
      rw [runDigit digit] at taken
      obtain ⟨rfl, _⟩ := Prod.mk.inj taken
      exact ⟨.digits (zero ·) ⟨by simp, all⟩, same⟩
    · contradiction

theorem fractionPartSound {ended} {text fraction rest}
    (ok : fractionPart ended text = .ok (fraction, rest)) :
    ∃ point, Fraction fraction point ∧ text = point ++ rest := by
  unfold fractionPart at ok
  split at ok
  · obtain ⟨⟨digits, tail⟩, taken, same⟩ := bindOk.mp ok
    cases same
    obtain ⟨all, rfl⟩ := digitsAfterSound taken
    exact ⟨_, .digits all, rfl⟩
  · cases ok
    exact ⟨_, .absent, rfl⟩

theorem exponentSignSound (text : List Char) :
    ∃ sign, Sign (exponentSign text).1 sign ∧ text = sign ++ (exponentSign text).2 := by
  unfold exponentSign
  split
  · exact ⟨_, .plus, rfl⟩
  · exact ⟨_, .minus, rfl⟩
  · exact ⟨_, .absent, rfl⟩

theorem exponentPartSound {ended} {text exponent rest}
    (ok : exponentPart ended text = .ok (exponent, rest)) :
    ∃ power, Exponent exponent power ∧ text = power ++ rest := by
  cases text with
  | nil =>
      cases ok
      exact ⟨_, .absent, rfl⟩
  | cons c text =>
      cases mark : isExponentMark c with
      | false =>
          rw [exponentPartAbsent mark] at ok
          cases ok
          exact ⟨_, .absent, rfl⟩
      | true =>
          rw [exponentPartMarked mark] at ok
          obtain ⟨⟨digits, tail⟩, taken, same⟩ := bindOk.mp ok
          cases same
          obtain ⟨sign, signed, front⟩ := exponentSignSound text
          obtain ⟨all, back⟩ := digitsAfterSound taken
          refine ⟨_, .digits mark signed all, ?_⟩
          rw [List.cons_append, List.append_assoc, ← back, ← front]

theorem minusSound (text : List Char) :
    text = (if (minus text).1 then ['-'] else []) ++ (minus text).2 := by
  unfold minus
  split <;> rfl

theorem numeralSound {ended n} {text rest : List Char} (ok : numeral ended text = .ok (n, rest)) :
    ∃ digits, n.Spelled digits ∧ text = digits ++ rest := by
  simp only [numeral, bindOk] at ok
  obtain ⟨⟨whole, t⟩, one, ⟨fraction, u⟩, two, ⟨exponent, v⟩, three, same⟩ := ok
  cases same
  obtain ⟨digits, front⟩ := wholePartSound one
  obtain ⟨point, behind, rfl⟩ := fractionPartSound two
  obtain ⟨power, scaled, rfl⟩ := exponentPartSound three
  refine ⟨_, .parts digits behind scaled, ?_⟩
  rw [List.append_assoc, List.append_assoc, List.append_assoc, ← front]
  exact minusSound text

theorem spelledStart {n : Numeral} {text} (spelled : n.Spelled text) :
    ∃ c rest, text = c :: rest ∧ (c = '-' ∨ c.isDigit = true) := by
  cases spelled with
  | @parts negative whole fraction exponent point power digits behind scaled =>
      cases negative with
      | true => exact ⟨'-', _, rfl, .inl rfl⟩
      | false =>
          obtain ⟨c, rest, rfl, digit⟩ := wholeStart digits
          exact ⟨c, _, rfl, .inr digit⟩

def Frame.opening : Frame → Char
  | list => '['
  | object => '\x7b'

def Frame.closing : Frame → Char
  | list => ']'
  | object => '\x7d'

inductive Lead : Bool → List Char → Prop where
  | first {gap} (blank : space gap = []) : Lead true gap
  | later {gap gap'} (blank : space gap = []) (blank' : space gap' = []) :
      Lead false (gap ++ ',' :: gap')

def words : List (List Char) :=
  [['n', 'u', 'l', 'l'], ['t', 'r', 'u', 'e'], ['f', 'a', 'l', 's', 'e']]

inductive Part where
  | value
  | entries (frame : Frame) (first : Bool)

/- A value from its first character to its last, or what is left of a list or an object when
its next entry is the first one or not. -/
inductive Valid : Part → List Char → Prop where
  | word {text} (one : text ∈ words) : Valid .value text
  | number {n text} (spelled : Numeral.Spelled n text) : Valid .value text
  | string {letters} (all : Letters letters) : Valid .value ('"' :: letters)
  | opened {frame text} (inside : Valid (.entries frame true) text) :
      Valid .value (frame.opening :: text)
  | closed {frame first gap} (blank : space gap = []) :
      Valid (.entries frame first) (gap ++ [frame.closing])
  | item {first lead value text} (between : Lead first lead) (one : Valid .value value)
      (others : Valid (.entries .list false) text) :
      Valid (.entries .list first) (lead ++ (value ++ text))
  | member {first lead letters gap gap' value text} (between : Lead first lead)
      (key : Letters letters) (blank : space gap = []) (blank' : space gap' = [])
      (one : Valid .value value) (others : Valid (.entries .object false) text) :
      Valid (.entries .object first)
        (lead ++ '"' :: (letters ++ (gap ++ ':' :: (gap' ++ (value ++ text)))))

theorem leadComma (first : Bool) : Lead first (if first then [] else [',']) := by
  cases first with
  | true => exact .first rfl
  | false => exact @Lead.later [] [] rfl rfl

theorem leadGap {first lead gap} (between : Lead first lead) (blank : space gap = []) :
    Lead first (gap ++ lead) := by
  have joined {gap'} (blank' : space gap' = []) : space (gap ++ gap') = [] := by
    simp [blank, blank']
  cases between with
  | first blank' => exact .first (joined blank')
  | later blank' last =>
      rw [← List.append_assoc]
      exact .later (joined blank') last

end TileCost.Json
