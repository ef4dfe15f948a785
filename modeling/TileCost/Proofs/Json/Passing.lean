import TileCost.Proofs.Json.Grammar
import TileCost.Proofs.Json.Naturals
import TileCost.Proofs.Json.Skipping

/-! Every value of the grammar is passed over, to any depth, and nothing behind it. What
is passed over inside a list or an object brings its frame in front of the next entry, so
a value is passed with whatever is open around it. -/
namespace TileCost.Json
open Outcome (bindOk mapOk)

/-! Each step takes text away, so there is fuel for all of them. -/

theorem spaceShorter (text : List Char) : (space text).length ≤ text.length :=
  (List.dropWhile_suffix _).length_le

theorem markShorter {text rest : List Char} {c : Char} (here : space text = c :: rest) :
    rest.length < text.length := by
  have shorter := spaceShorter text
  rw [here, List.length_cons] at shorter
  exact shorter

theorem wordShorter {letters text rest} (ok : word letters text = .ok rest) :
    rest.length ≤ text.length := by
  induction letters generalizing text with
  | nil =>
      cases ok
      exact Nat.le_refl _
  | cons letter letters ih =>
      cases text with
      | nil => contradiction
      | cons c text =>
          simp only [word] at ok
          split at ok
          · exact Nat.le_succ_of_le (ih ok)
          · contradiction

theorem skipStringShorter {text rest} (ok : skipString text = .ok rest) :
    rest.length ≤ text.length := by
  obtain ⟨letters, _, rfl⟩ := skipStringSound ok
  simp

theorem skipNumberShorter {text rest} (ok : skipNumber text = .ok rest) :
    rest.length < text.length := by
  obtain ⟨⟨n, tail⟩, taken, rfl⟩ := mapOk.mp ok
  obtain ⟨digits, spelled, rfl⟩ := numeralSound taken
  obtain ⟨c, others, rfl, _⟩ := spelledStart spelled
  simp only [List.cons_append, List.length_cons, List.length_append]
  omega

theorem skipScalarShorter {text rest} (ok : skipScalar text = .ok rest) :
    rest.length < text.length := by
  unfold skipScalar at ok
  split at ok
  · exact Nat.lt_succ_of_le (wordShorter ok)
  · exact Nat.lt_succ_of_le (wordShorter ok)
  · exact Nat.lt_succ_of_le (wordShorter ok)
  · exact Nat.lt_succ_of_le (skipStringShorter ok)
  · split at ok
    · exact skipNumberShorter ok
    · contradiction

theorem announceShorter {frame : Frame} {text rest} (ok : frame.announce text = .ok rest) :
    rest.length ≤ text.length := by
  cases frame with
  | list =>
      cases ok
      exact Nat.le_refl _
  | object =>
      unfold Frame.announce at ok
      dsimp only at ok
      split at ok
      · contradiction
      · rename_i here
        obtain ⟨tail, passed, ok⟩ := bindOk.mp ok
        split at ok
        · rename_i colon
          cases ok
          have := markShorter here
          have := skipStringShorter passed
          have := markShorter colon
          omega
        · contradiction
        · contradiction
      · contradiction

theorem unwindShorter {frames text opened} (ok : unwind frames text = .ok opened) :
    opened.rest.length ≤ text.length := by
  induction frames generalizing text with
  | nil =>
      cases ok
      exact Nat.le_refl _
  | cons frame outer ih =>
      unfold unwind at ok
      split at ok
      · contradiction
      · rename_i c rest here
        have shorter := markShorter here
        split at ok
        · obtain ⟨tail, announced, rfl⟩ := mapOk.mp ok
          exact Nat.le_trans (announceShorter announced) (Nat.le_of_lt shorter)
        · split at ok
          · exact Nat.le_trans (ih ok) (Nat.le_of_lt shorter)
          · contradiction

theorem enterShorter {frame outer text opened} (ok : enter frame outer text = .ok opened) :
    opened.rest.length ≤ text.length := by
  unfold enter at ok
  split at ok
  · contradiction
  · rename_i c rest here
    split at ok
    · exact Nat.le_trans (unwindShorter ok) (Nat.le_of_lt (markShorter here))
    · obtain ⟨tail, announced, rfl⟩ := mapOk.mp ok
      rw [← here] at announced
      exact Nat.le_trans (announceShorter announced) (spaceShorter text)

theorem passOneShorter {outer text opened} (ok : passOne outer text = .ok opened) :
    opened.rest.length < text.length := by
  unfold passOne at ok
  split at ok
  · contradiction
  · rename_i here
    exact Nat.lt_of_le_of_lt (enterShorter ok) (markShorter here)
  · rename_i here
    exact Nat.lt_of_le_of_lt (enterShorter ok) (markShorter here)
  · obtain ⟨tail, passed, ok⟩ := bindOk.mp ok
    have := skipScalarShorter passed
    have := unwindShorter ok
    have := spaceShorter text
    omega

/- From the next value on, the steps lead out of all that is open, to the text `rest`. -/
inductive Ahead : Opened → List Char → Prop where
  | out (rest) : Ahead ⟨[], rest⟩ rest
  | step {frame outer text opened rest} (ok : passOne (frame :: outer) text = .ok opened)
      (others : Ahead opened rest) : Ahead ⟨frame :: outer, text⟩ rest

def LeadsTo (step : Except Failure Opened) (rest : List Char) : Prop :=
  ∃ opened, step = .ok opened ∧ Ahead opened rest

theorem leadsAhead {frame outer text rest} (leads : LeadsTo (passOne (frame :: outer) text) rest) :
    Ahead ⟨frame :: outer, text⟩ rest := by
  obtain ⟨opened, ok, others⟩ := leads
  exact .step ok others

theorem passAllAhead {opened rest} (ahead : Ahead opened rest) {fuel outer text}
    (ok : passOne outer text = .ok opened) (enough : text.length < fuel) :
    passAll fuel outer text = .ok rest := by
  induction ahead generalizing fuel outer text with
  | out rest =>
      cases fuel with
      | zero => contradiction
      | succ fuel => simp [passAll, ok, bind, Except.bind, pure, Except.pure]
  | @step frame above inner opened rest next others ih =>
      cases fuel with
      | zero => contradiction
      | succ fuel =>
          have shorter := passOneShorter ok
          have left := ih next (Nat.lt_of_lt_of_le shorter (Nat.le_of_lt_succ enough))
          simpa [passAll, ok, bind, Except.bind] using left

def Passed (text rest : List Char) : Prop :=
  ∀ outer last, LeadsTo (unwind outer rest) last → LeadsTo (passOne outer text) last

theorem skipValuePassed {text rest} (passed : Passed text rest) : skipValue text = .ok rest := by
  obtain ⟨opened, ok, ahead⟩ := passed [] rest ⟨_, rfl, .out rest⟩
  exact passAllAhead ahead ok (Nat.lt_succ_self _)

theorem passedSpace {gap text rest} (blank : space gap = []) (passed : Passed text rest) :
    Passed (gap ++ text) rest := by
  intro outer last leads
  have same : passOne outer (gap ++ text) = passOne outer text := by
    unfold passOne
    rw [spaceBlank blank]
  rw [same]
  exact passed outer last leads

def inside (frame : Frame) (first : Bool) (outer : List Frame) (text : List Char) :
    Except Failure Opened :=
  if first then enter frame outer text else unwind (frame :: outer) text

def Closes (frame : Frame) (first : Bool) (text rest : List Char) : Prop :=
  ∀ outer last, LeadsTo (unwind outer rest) last → LeadsTo (inside frame first outer text) last

theorem closingNotSpace (frame : Frame) : isSpace frame.closing = false := by
  cases frame <;> rfl

@[simp] theorem closedByClosing (frame : Frame) : frame.isClosedBy frame.closing = true := by
  cases frame <;> rfl

@[simp] theorem closingNotComma (frame : Frame) : frame.closing ≠ ',' := by
  cases frame <;> decide

theorem closesHere {gap : List Char} (blank : space gap = []) (frame : Frame) (first : Bool)
    (rest : List Char) : Closes frame first (gap ++ frame.closing :: rest) rest := by
  intro outer last leads
  have here := spaceMark blank (closingNotSpace frame) rest
  have same : inside frame first outer (gap ++ frame.closing :: rest) = unwind outer rest := by
    cases first with
    | true => simp [inside, enter, here]
    | false => simp [inside, unwind, here]
  rwa [same]

theorem closesBehind {frame : Frame} {first lead} (between : Lead first lead) {c : Char}
    {entry : List Char} (mark : isSpace c = false) (further : frame.isClosedBy c = false)
    {rest after : List Char}
    (announced : ∀ gap, space gap = [] →
      ∃ text, frame.announce (gap ++ c :: entry) = .ok text ∧ Passed text rest)
    (others : Closes frame false rest after) : Closes frame first (lead ++ c :: entry) after := by
  intro outer last leads
  have behind := others outer last leads
  cases between with
  | first blank =>
      obtain ⟨text, ok, passed⟩ := announced [] rfl
      refine ⟨⟨frame :: outer, text⟩, ?_, leadsAhead (passed _ _ behind)⟩
      rw [List.nil_append] at ok
      simp [inside, enter, spaceMark blank mark, further, ok, Except.map]
  | @later gap gap' blank blank' =>
      obtain ⟨text, ok, passed⟩ := announced gap' blank'
      refine ⟨⟨frame :: outer, text⟩, ?_, leadsAhead (passed _ _ behind)⟩
      have comma := spaceMark blank (rfl : isSpace ',' = false) (gap' ++ c :: entry)
      simp [inside, unwind, comma, ok, Except.map]

theorem numberMark {c : Char} (start : c = '-' ∨ c.isDigit = true) :
    isSpace c = false ∧ c ≠ '[' ∧ c ≠ '\x7b' ∧ c ≠ ']' := by
  rcases start with rfl | digit
  · decide
  · refine ⟨digitNotSpace digit, ?_, ?_, ?_⟩
    · rintro rfl
      contradiction
    · rintro rfl
      contradiction
    · rintro rfl
      contradiction

theorem valueStart {text} (value : Valid .value text) :
    ∃ c rest, text = c :: rest ∧ isSpace c = false ∧ c ≠ ']' := by
  cases value with
  | word one =>
      simp only [words, List.mem_cons, List.not_mem_nil, or_false] at one
      rcases one with rfl | rfl | rfl
      · exact ⟨'n', _, rfl, rfl, by decide⟩
      · exact ⟨'t', _, rfl, rfl, by decide⟩
      · exact ⟨'f', _, rfl, rfl, by decide⟩
  | number spelled =>
      obtain ⟨c, rest, rfl, start⟩ := spelledStart spelled
      obtain ⟨mark, _, _, other⟩ := numberMark start
      exact ⟨c, rest, rfl, mark, other⟩
  | string all => exact ⟨'"', _, rfl, rfl, by decide⟩
  | @opened frame text inside =>
      cases frame with
      | list => exact ⟨'[', _, rfl, rfl, by decide⟩
      | object => exact ⟨'\x7b', _, rfl, rfl, by decide⟩

theorem gapEnds {gap rest : List Char} (blank : space gap = []) (ends : Ends rest) :
    Ends (gap ++ rest) := by
  cases gap with
  | nil => exact ends
  | cons d gap =>
      have white : isSpace d = true := by
        have all := List.dropWhile_eq_nil_iff.mp blank
        exact all d List.mem_cons_self
      simp only [isSpace, Bool.or_eq_true, decide_eq_true_eq] at white
      rcases white with ((rfl | rfl) | rfl) | rfl <;> exact ⟨rfl, by decide, rfl⟩

theorem blankEnds {gap : List Char} (blank : space gap = []) : Ends gap := by
  rw [← List.append_nil gap]
  exact gapEnds blank trivial

theorem leadEnds {lead} (between : Lead false lead) (rest : List Char) : Ends (lead ++ rest) := by
  cases between with
  | later blank _ =>
      rw [List.append_assoc]
      exact gapEnds blank ⟨rfl, by decide, rfl⟩

theorem entriesEnds {frame text} (entries : Valid (.entries frame false) text)
    (after : List Char) : Ends (text ++ after) := by
  cases entries with
  | closed blank =>
      rw [List.append_assoc]
      cases frame with
      | list => exact gapEnds blank ⟨rfl, by decide, rfl⟩
      | object => exact gapEnds blank ⟨rfl, by decide, rfl⟩
  | item between _ _ =>
      rw [List.append_assoc]
      exact leadEnds between _
  | member between _ _ _ _ _ =>
      rw [List.append_assoc]
      exact leadEnds between _

theorem scalarPassed {c : Char} {text after : List Char} (mark : isSpace c = false)
    (list : c ≠ '[') (object : c ≠ '\x7b') (ok : skipScalar (c :: text) = .ok after) :
    Passed (c :: text) after := by
  intro outer last leads
  rw [passOneScalar (spaceStopped mark text) list object, ok]
  exact leads

theorem wordPassed {text : List Char} (one : text ∈ words) (after : List Char) :
    Passed (text ++ after) after := by
  simp only [words, List.mem_cons, List.not_mem_nil, or_false] at one
  rcases one with rfl | rfl | rfl
  · exact scalarPassed rfl (by decide) (by decide) rfl
  · exact scalarPassed rfl (by decide) (by decide) rfl
  · exact scalarPassed rfl (by decide) (by decide) rfl

theorem numberPassed {n text after} (spelled : Numeral.Spelled n text) (ends : Ends after) :
    Passed (text ++ after) after := by
  obtain ⟨c, rest, rfl, start⟩ := spelledStart spelled
  have number : startsNumber (c :: rest ++ after) = true := by
    rcases start with rfl | digit
    · rfl
    · simp [startsNumber, startsDigit, digit]
  have passed : skipScalar (c :: rest ++ after) = .ok after := by
    rw [skipScalarNumber number, skipNumber, numeralComplete spelled ends]
    rfl
  obtain ⟨mark, list, object, _⟩ := numberMark start
  exact scalarPassed mark list object passed

theorem memberAnnounced {front letters gap : List Char} (blank : space front = [])
    (key : Letters letters) (blank' : space gap = []) (text : List Char) :
    Frame.object.announce (front ++ '"' :: (letters ++ (gap ++ ':' :: text))) = .ok text := by
  have quote := spaceMark blank (rfl : isSpace '"' = false) (letters ++ (gap ++ ':' :: text))
  have colon := spaceMark blank' (rfl : isSpace ':' = false) text
  simp [Frame.announce, quote, skipStringComplete key, colon, bind, Except.bind, pure, Except.pure]

theorem openedPassed {frame : Frame} {text rest : List Char}
    (closes : Closes frame true text rest) : Passed (frame.opening :: text) rest := by
  intro outer last leads
  have entered := closes outer last leads
  cases frame with
  | list => exact entered
  | object => exact entered

def Part.IsPassed : Part → List Char → Prop
  | value, text => ∀ after, Ends after → Passed (text ++ after) after
  | entries frame first, text => ∀ after, Closes frame first (text ++ after) after

theorem validPassed {part text} (valid : Valid part text) : part.IsPassed text := by
  induction valid with
  | word one => exact fun after _ => wordPassed one after
  | number spelled => exact fun after ends => numberPassed spelled ends
  | string all =>
      intro after _
      exact scalarPassed rfl (by decide) (by decide) (skipStringComplete all after)
  | opened _ ih =>
      intro after _
      exact openedPassed (ih after)
  | @closed frame first gap blank =>
      intro after
      rw [List.append_assoc]
      exact closesHere blank frame first after
  | @item first lead value text between one others passed ih =>
      intro after
      obtain ⟨c, rest, rfl, mark, other⟩ := valueStart one
      have ends := entriesEnds others after
      have announced (gap : List Char) (blank : space gap = []) :
          ∃ tail, Frame.list.announce (gap ++ c :: (rest ++ (text ++ after))) = .ok tail ∧
            Passed tail (text ++ after) :=
        ⟨_, rfl, passedSpace blank (passed _ ends)⟩
      have further : Frame.list.isClosedBy c = false := by simpa [Frame.isClosedBy] using other
      have all := closesBehind between mark further announced (ih after)
      simpa using all
  | @member first lead letters gap gap' value text between key blank blank' one others passed ih =>
      intro after
      have ends := entriesEnds others after
      have announced (front : List Char) (blank'' : space front = []) :
          ∃ tail, Frame.object.announce (front ++
              '"' :: (letters ++ (gap ++ ':' :: (gap' ++ (value ++ (text ++ after)))))) = .ok tail ∧
            Passed tail (text ++ after) :=
        ⟨_, memberAnnounced blank'' key blank _, passedSpace blank' (passed _ ends)⟩
      have all := closesBehind between (rfl : isSpace '"' = false) rfl announced (ih after)
      simpa using all

theorem skipValueValid {gap value after : List Char} (blank : space gap = [])
    (valid : Valid .value value) (ends : Ends after) :
    skipValue (gap ++ (value ++ after)) = .ok after :=
  skipValuePassed (passedSpace blank (validPassed valid after ends))

end TileCost.Json
