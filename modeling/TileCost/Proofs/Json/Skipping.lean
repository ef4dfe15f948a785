import TileCost.Proofs.Json.Determined

/-! Passing over a value ends where the value does, however deep it is: as long as a
list or an object is open, text has to follow, and nothing behind the outermost value
is looked at. -/
namespace TileCost.Json
open Outcome (bindOk mapOk)

theorem announceContinued {frame : Frame} {text rest} (ok : frame.announce text = .ok rest)
    (more : List Char) : frame.announce (text ++ more) = .ok (rest ++ more) := by
  cases frame with
  | list =>
      cases ok
      rfl
  | object =>
      unfold Frame.announce at ok ⊢
      dsimp only at ok ⊢
      split at ok
      · contradiction
      · rename_i here
        rw [spaceAt here]
        simp only [bindOk] at ok ⊢
        obtain ⟨tail, passed, ok⟩ := ok
        refine ⟨_, skipStringContinued passed more, ?_⟩
        split at ok
        · rename_i colon
          rw [spaceAt colon]
          cases ok
          rfl
        · contradiction
        · contradiction
      · contradiction

def Opened.andMore (more : List Char) (opened : Opened) : Opened :=
  ⟨opened.frames, opened.rest ++ more⟩

theorem unwindContinued {frames text opened} (ok : unwind frames text = .ok opened)
    (more : List Char) : unwind frames (text ++ more) = .ok (opened.andMore more) := by
  induction frames generalizing text with
  | nil =>
      cases ok
      rfl
  | cons frame outer ih =>
      unfold unwind at ok ⊢
      split at ok
      · contradiction
      · rename_i c rest here
        rw [spaceAt here]
        dsimp only
        split at ok
        · rename_i comma
          obtain ⟨tail, announced, same⟩ := mapOk.mp ok
          subst same
          rw [if_pos comma]
          exact mapOk.mpr ⟨_, announceContinued announced more, rfl⟩
        · rename_i other
          rw [if_neg other]
          split at ok
          · rename_i closes
            rw [if_pos closes]
            exact ih ok
          · contradiction

theorem enterContinued {frame outer text opened} (ok : enter frame outer text = .ok opened)
    (more : List Char) : enter frame outer (text ++ more) = .ok (opened.andMore more) := by
  unfold enter at ok ⊢
  split at ok
  · contradiction
  · rename_i c rest here
    rw [spaceAt here]
    dsimp only
    split at ok
    · rename_i closes
      rw [if_pos closes]
      exact unwindContinued ok more
    · rename_i inside
      rw [if_neg inside]
      obtain ⟨tail, announced, same⟩ := mapOk.mp ok
      subst same
      exact mapOk.mpr ⟨_, announceContinued announced more, rfl⟩

theorem skipScalarNumber {text : List Char} (starts : startsNumber text = true) :
    skipScalar text = skipNumber text := by
  unfold skipScalar
  split
  · contradiction
  · contradiction
  · contradiction
  · contradiction
  · rw [if_pos (by simpa [startsNumber] using starts)]

theorem skipScalarContinued {text rest more : List Char} (ok : skipScalar text = .ok rest)
    (ends : rest = [] → Ends more) : skipScalar (text ++ more) = .ok (rest ++ more) := by
  cases starts : startsNumber text with
  | true =>
      rw [skipScalarNumber starts] at ok
      have still : startsNumber (text ++ more) = true := by
        cases text with
        | nil => contradiction
        | cons c text => exact starts
      rw [skipScalarNumber still]
      exact skipNumberContinued ok ends
  | false =>
      unfold skipScalar at ok
      split at ok
      · exact wordContinued ok more
      · exact wordContinued ok more
      · exact wordContinued ok more
      · exact skipStringContinued ok more
      · rw [if_neg (by simpa [startsNumber] using starts)] at ok
        contradiction

theorem passOneScalar {outer text rest} {c : Char} (here : space text = c :: rest) (list : c ≠ '[')
    (object : c ≠ '{') :
    passOne outer text = (skipScalar (c :: rest) >>= unwind outer) := by
  unfold passOne
  rw [here]
  split
  · contradiction
  · rename_i same
    exact absurd (List.cons.inj same).1 list
  · rename_i same
    exact absurd (List.cons.inj same).1 object
  · rfl

theorem passOneContinued {outer text opened} {more : List Char}
    (ok : passOne outer text = .ok opened) (ends : opened.rest = [] → Ends more) :
    passOne outer (text ++ more) = .ok (opened.andMore more) := by
  cases here : space text with
  | nil => simp [passOne, here] at ok
  | cons c rest =>
      by_cases list : c = '['
      · subst list
        simp only [passOne, here, spaceAt here more] at ok ⊢
        exact enterContinued ok more
      · by_cases object : c = '{'
        · subst object
          simp only [passOne, here, spaceAt here more] at ok ⊢
          exact enterContinued ok more
        · rw [passOneScalar here list object] at ok
          rw [passOneScalar (spaceAt here more) list object]
          simp only [bindOk] at ok ⊢
          obtain ⟨tail, passed, ok⟩ := ok
          have bounded : tail = [] → Ends more := by
            intro none
            subst none
            cases outer with
            | nil =>
                cases ok
                exact ends rfl
            | cons frame outer => contradiction
          exact ⟨_, skipScalarContinued passed bounded, unwindContinued ok more⟩

theorem passAllLeft {fuel outer text rest} (ok : passAll fuel outer text = .ok rest) :
    text ≠ [] := by
  intro none
  subst none
  cases fuel with
  | zero => contradiction
  | succ fuel => contradiction

theorem passAllContinued {fuel fuel' : Nat} (enough : fuel ≤ fuel') {outer text rest}
    {more : List Char} (ok : passAll fuel outer text = .ok rest) (ends : rest = [] → Ends more) :
    passAll fuel' outer (text ++ more) = .ok (rest ++ more) := by
  induction fuel generalizing fuel' outer text with
  | zero => contradiction
  | succ fuel ih =>
      cases fuel' with
      | zero => contradiction
      | succ fuel' =>
          simp only [passAll, bindOk] at ok ⊢
          obtain ⟨opened, passed, ok⟩ := ok
          split at ok
          · rename_i finished
            cases ok
            exact ⟨_, passOneContinued passed ends, if_pos finished⟩
          · rename_i unfinished
            have bounded : opened.rest = [] → Ends more := (absurd · (passAllLeft ok))
            have others := ih (Nat.le_of_succ_le_succ enough) ok
            exact ⟨_, passOneContinued passed bounded, (if_neg unfinished).trans others⟩

theorem skipValueContinued {text rest more : List Char} (ok : skipValue text = .ok rest)
    (ends : rest = [] → Ends more) : skipValue (text ++ more) = .ok (rest ++ more) :=
  passAllContinued (by simp) ok ends

end TileCost.Json
