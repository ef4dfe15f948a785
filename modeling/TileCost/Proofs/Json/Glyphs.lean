import TileCost.Json.Text

/-! What stands behind the opening quote of a JSON string: one text after the other,
each of them one character, up to the closing quote. Reading a string finds exactly
this, and what is written for a character is one of its texts. -/
namespace TileCost.Json

inductive Glyph : List Char → Char → Prop where
  | plain {c} (quote : c ≠ '"') (slash : c ≠ '\\') (printing : isControl c = false) : Glyph [c] c
  | short {c decoded} (known : shortEscape c = some decoded) : Glyph ['\\', c] decoded
  | code {a b c d unit} (hex : codeUnit a b c d = some unit)
      (low : isLowSurrogate unit = false) (high : isHighSurrogate unit = false) :
      Glyph ['\\', 'u', a, b, c, d] (Char.ofNat unit)
  | pair {a b c d e f g h high low} (first : codeUnit a b c d = some high)
      (apart : isLowSurrogate high = false) (above : isHighSurrogate high = true)
      (second : codeUnit e f g h = some low) (below : isLowSurrogate low = true) :
      Glyph ['\\', 'u', a, b, c, d, '\\', 'u', e, f, g, h] (paired high low)

inductive Quoted : List Char → List Char → List Char → Prop where
  | close (rest) : Quoted ('"' :: rest) [] rest
  | glyph {text c tail value rest} (one : Glyph text c) (others : Quoted tail value rest) :
      Quoted (text ++ tail) (c :: value) rest

theorem stringGlyph {text c} (one : Glyph text c) (done tail : List Char) :
    string done (text ++ tail) = string (c :: done) tail := by
  cases one with
  | plain quote slash printing => simp [string, slash, printing]
  | @short c decoded known =>
      have letter : c ≠ 'u' := by
        intro same
        subst c
        contradiction
      simp [string, letter, known]
  | code hex low high => simp [string, hex, low, high]
  | pair first apart above second below => simp [string, first, apart, above, second, below]

theorem stringComplete {text value rest} (quoted : Quoted text value rest) (done : List Char) :
    string done text = .ok (done.reverse ++ value, rest) := by
  induction quoted generalizing done with
  | close rest => simp [string]
  | glyph one others ih =>
      rw [stringGlyph one, ih]
      simp

/- A backslash never comes down to the last case of a reader: alone or before another
character it has a case of its own. -/
theorem lastNotSlash {c : Char} {rest : List Char} (lone : c = '\\' → rest = [] → False)
    (slash : ∀ d tail, c = '\\' → rest = d :: tail → False) : c ≠ '\\' := by
  intro same
  cases rest with
  | nil => exact lone same rfl
  | cons d tail => exact slash d tail same rfl

theorem stringSound {done text value rest} (ok : string done text = .ok (value, rest)) :
    ∃ tail, Quoted text tail rest ∧ value = done.reverse ++ tail := by
  have extended {c : Char} {glyph done text : List Char} (one : Glyph glyph c)
      (ih : ∃ tail, Quoted text tail rest ∧ value = (c :: done).reverse ++ tail) :
      ∃ tail, Quoted (glyph ++ text) tail rest ∧ value = done.reverse ++ tail := by
    obtain ⟨tail, others, same⟩ := ih
    exact ⟨c :: tail, .glyph one others, by simpa using same⟩
  fun_induction string done text with
  | case2 done rest =>
      cases ok
      exact ⟨[], .close _, by simp⟩
  | case6 done a b c d high first apart above e f g h after low second below ih =>
      exact extended (.pair first (by simpa using apart) above second below) (ih ok)
  | case9 done a b c d rest unit hex low high ih =>
      exact extended (.code hex (by simpa using low) (by simpa using high)) (ih ok)
  | case12 done c rest _ _ decoded known ih => exact extended (.short known) (ih ok)
  | case15 done c rest quote _ _ lone slash printing ih =>
      exact extended (.plain quote (lastNotSlash lone slash) (by simpa using printing)) (ih ok)
  | _ => contradiction

theorem stringExact {text value rest} :
    string [] text = .ok (value, rest) ↔ Quoted text value rest := by
  constructor
  · intro ok
    obtain ⟨tail, quoted, same⟩ := stringSound ok
    subst value
    exact quoted
  · intro quoted
    exact stringComplete quoted []

theorem hexWritten : ∀ n < 16, hexDigit (Nat.digitChar n) = some n := by decide

theorem codeWritten {n : Nat} (small : n < 0x20) :
    codeUnit '0' '0' (Nat.digitChar (n / 16)) (Nat.digitChar (n % 16)) = some n := by
  have zero : hexDigit '0' = some 0 := by decide
  have high := hexWritten (n / 16) (by omega)
  have low := hexWritten (n % 16) (by omega)
  simp only [codeUnit, zero, high, low]
  congr 1
  omega

theorem escapedGlyph (c : Char) : Glyph (escaped c) c := by
  unfold escaped
  split
  · exact .short rfl
  · exact .short rfl
  · exact .short rfl
  · exact .short rfl
  · exact .short rfl
  · exact .short rfl
  · exact .short rfl
  · rename_i quote slash _ _ _ _ _
    split
    · rename_i control
      have small : c.toNat < 0x20 := by simpa [isControl] using control
      have low : isLowSurrogate c.toNat = false := by simp [isLowSurrogate]; omega
      have high : isHighSurrogate c.toNat = false := by simp [isHighSurrogate]; omega
      have coded := Glyph.code (codeWritten small) low high
      rwa [Char.ofNat_toNat] at coded
    · rename_i printing
      exact .plain quote slash (by simpa using printing)

theorem escapedQuoted (value rest : List Char) :
    Quoted (value.flatMap escaped ++ '"' :: rest) value rest := by
  induction value with
  | nil => exact .close rest
  | cons c value ih =>
      rw [List.flatMap_cons, List.append_assoc]
      exact .glyph (escapedGlyph c) ih

theorem quotedContinued {text value rest} (quoted : Quoted text value rest) (more : List Char) :
    Quoted (text ++ more) value (rest ++ more) := by
  induction quoted with
  | close rest => exact .close _
  | glyph one others ih =>
      rw [List.append_assoc]
      exact .glyph one ih

end TileCost.Json
