import TileCost.Proofs.Json.Sound

/-! Names that do not decode, such as half of a surrogate pair. An object of the grammar either
has its members, or it has such a name, and then no record reads it. -/
namespace TileCost.Json

inductive Undecoded : Bool → List Char → Prop where
  | here {first lead letters gap gap' value text} (between : Lead first lead)
      (key : Letters letters) (undecoded : ∀ name, ¬ Quoted letters name [])
      (blank : space gap = []) (blank' : space gap' = []) (one : Valid .value value)
      (others : Valid (.entries .object false) text) :
      Undecoded first (lead ++ '"' :: (letters ++ (gap ++ ':' :: (gap' ++ (value ++ text)))))
  | later {first lead letters name gap gap' value text} (between : Lead first lead)
      (named : Quoted letters name []) (blank : space gap = []) (blank' : space gap' = [])
      (one : Valid .value value) (others : Undecoded false text) :
      Undecoded first (lead ++ '"' :: (letters ++ (gap ++ ':' :: (gap' ++ (value ++ text)))))

namespace Undecoded

theorem valid {first text} (undecoded : Undecoded first text) :
    Valid (.entries .object first) text := by
  induction undecoded with
  | here between key _ blank blank' one others => exact .member between key blank blank' one others
  | later between named blank blank' one _ ih =>
      exact .member between (quotedWhole named) blank blank' one ih

theorem unnamed {first given text} (undecoded : Undecoded first text) :
    ¬ AnyObject first given text := by
  intro object
  induction undecoded generalizing given with
  | here between key undecoded blank blank' one others =>
      obtain ⟨name, _, _, named, _⟩ := objectMember between key blank blank' one others object
      exact undecoded _ named
  | later between named blank blank' one others ih =>
      obtain ⟨_, _, _, _, object'⟩ :=
        objectMember between (quotedWhole named) blank blank' one others.valid object
      exact ih object'

end Undecoded

theorem namedOrNot {first text} (valid : Valid (.entries .object first) text) :
    (∃ given, AnyObject first given text) ∨ Undecoded first text := by
  generalize whole : Part.entries .object first = part at valid
  induction valid generalizing first with
  | closed blank =>
      cases whole
      exact .inl ⟨[], .closed blank⟩
  | @member _ lead letters gap gap' value text between key blank blank' one others _ ih =>
      cases whole
      by_cases decodes : ∃ name, Quoted letters name []
      · obtain ⟨name, named⟩ := decodes
        rcases ih rfl with ⟨given, object⟩ | undecoded
        · rw [← String.toList_ofList (l := name)] at named
          exact .inl ⟨_, .member between named blank blank' one object⟩
        · exact .inr (.later between named blank blank' one undecoded)
      · exact .inr (.here between key (not_exists.mp decodes) blank blank' one others)
  | word | number | string | opened | item => cases whole

theorem Record.undecodedUnread {r : Record α} (confined : r.Confined) {text} {x : α}
    (undecoded : Undecoded true text) : ¬ Spells r.read ('\x7b' :: text) x := by
  intro spelled
  obtain ⟨gap, _, ok⟩ := spelled [] trivial
  obtain ⟨_, given, _, object, _⟩ :=
    membersSource confined undecoded.valid ((readBrace r (text ++ [])).symm.trans ok)
  exact undecoded.unnamed object

inductive UndecodedText (text : String) : Prop where
  | object {gap inside gap'} (blank : space gap = []) (blank' : space gap' = [])
      (undecoded : Undecoded true inside)
      (same : text.toList = gap ++ ('\x7b' :: inside ++ gap')) : UndecodedText text

/- Of the texts that are one object none is left out. -/
theorem objectTexts {text : String} {rest : List Char} (whole : DocumentText text)
    (brace : space text.toList = '\x7b' :: rest) :
    (∃ given, ObjectText given text) ∨ UndecodedText text := by
  obtain ⟨gap', ⟨gap, value, blank, valid, same⟩, blank'⟩ := whole
  rw [same, spaceBlank blank, valueSpace valid] at brace
  obtain ⟨c, inside, rfl, _⟩ := valueStart valid
  obtain ⟨rfl, _⟩ := List.cons.inj brace
  rcases namedOrNot (valueOpened valid (rfl : _ = Frame.object.opening :: inside)) with
    ⟨given, object⟩ | undecoded
  · exact .inl ⟨given, .object blank blank' object same⟩
  · exact .inr (.object blank blank' undecoded same)

theorem undecodedUnread {r : Record α} (confined : r.Confined) {text : String}
    (undecoded : UndecodedText text) (x : α) : document r.read text ≠ .ok x := by
  obtain @⟨gap, inside, gap', blank, blank', object, same⟩ := undecoded
  have value : Valid .value ('\x7b' :: inside) :=
    (.opened object.valid : Valid .value (Frame.object.opening :: inside))
  rw [Ne, (Record.readConfined confined).document blank blank' value same]
  exact Record.undecodedUnread confined object

example : UndecodedText "\x7b\"\\ud800\":0\x7d" := by
  have lone (name) : ¬ Quoted "\\ud800\"".toList name [] := by
    intro quoted
    have refused : string [] "\\ud800\"".toList = .error (Cause.unpairedSurrogate.into ['"']) := by
      decide +kernel
    cases refused.symm.trans (stringExact.mpr quoted)
  have zero : Valid .value ['0'] := .number (writtenSpelled 0)
  have inside := @Undecoded.here true [] _ [] [] _ _ (.first rfl) (.code rfl .close) lone rfl rfl zero
    (@Valid.closed .object false [] rfl)
  exact @UndecodedText.object _ [] _ [] rfl rfl inside (by decide +kernel)

end TileCost.Json
