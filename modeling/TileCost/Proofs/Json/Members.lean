import TileCost.Proofs.Json.Lists

/-! Objects by their members, in the order of the text. What a record finds in an object is
what its known members fill it with one after the other, wherever the object stands; of
the others it only asks that they are values. -/
namespace TileCost.Json
open Outcome (bindOk)

variable {α β : Type}

/- The text behind the opening brace, or behind a member, and the members it holds: names as they
decode, values as they are written. An object with a name that does not decode is none of these;
see `Undecoded`. -/
inductive Object (holds : String → List Char → Prop) :
    Bool → List (String × List Char) → List Char → Prop where
  | closed {first gap} (blank : space gap = []) : Object holds first [] (gap ++ ['\x7d'])
  | member {first lead key name gap gap' value members text} (between : Lead first lead)
      (named : Quoted key name.toList []) (blank : space gap = []) (blank' : space gap' = [])
      (one : holds name value) (others : Object holds false members text) :
      Object holds first ((name, value) :: members)
        (lead ++ '"' :: (key ++ (gap ++ ':' :: (gap' ++ (value ++ text)))))

abbrev AnyObject : Bool → List (String × List Char) → List Char → Prop :=
  Object fun _ => Valid .value

theorem lastMember {first lead key name gap value} (between : Lead first lead)
    (named : Quoted key name.toList []) (blank : space gap = []) (one : Valid .value value) :
    AnyObject first [(name, value)] (lead ++ '"' :: (key ++ ':' :: (gap ++ (value ++ ['\x7d'])))) :=
  @Object.member _ first lead key name [] gap value [] _ between named rfl blank one
    (@Object.closed _ false [] rfl)

theorem objectValid {first members text} (object : AnyObject first members text) :
    Valid (.entries .object first) text := by
  induction object with
  | closed blank => exact .closed blank
  | member between named blank blank' one _ ih =>
      exact .member between (quotedWhole named) blank blank' one ih

theorem objectValue {members text} (object : AnyObject true members text) :
    Valid .value ('\x7b' :: text) :=
  (.opened (objectValid object) : Valid .value (Frame.object.opening :: text))

theorem objectEnds {holds members text} (object : Object holds false members text)
    (after : List Char) : Ends (text ++ after) := by
  cases object with
  | closed blank =>
      rw [List.append_assoc]
      exact gapEnds blank ⟨rfl, by decide, rfl⟩
  | member between _ _ _ _ _ =>
      rw [List.append_assoc]
      exact leadEnds between _

theorem objectHold {holds first members text} (object : Object holds first members text) :
    ∀ member ∈ members, holds member.1 member.2 := by
  induction object with
  | closed => simp
  | member _ _ _ _ one _ ih => exact List.forall_mem_cons.mpr ⟨one, ih⟩

theorem objectLength {holds first members text} (object : Object holds first members text) :
    members.length < text.length := by
  induction object with
  | closed blank => simp
  | member between named blank blank' one others ih =>
      simp only [List.length_cons, List.length_append]
      omega

namespace Record

@[simp] theorem nextMemberClosed {gap : List Char} (blank : space gap = []) (first : Bool)
    (after : List Char) : nextMember first (gap ++ '\x7d' :: after) = .ok (.closed after) :=
  nextMemberExact.mpr (.closed (spaceMark blank rfl after))

@[simp] theorem nextMemberLead {first lead} (between : Lead first lead) (text : List Char) :
    nextMember first (lead ++ '"' :: text) = .ok (.key text) := by
  apply nextMemberExact.mpr
  cases between with
  | first blank => exact .key rfl (spaceMark blank rfl text)
  | @later gap gap' blank blank' =>
      have comma := spaceMark blank (rfl : isSpace ',' = false) (gap' ++ '"' :: text)
      exact .next rfl (by simpa using comma) (spaceMark blank' rfl text)

theorem nextMemberEnd {first} {text after rest : List Char}
    (valid : Valid (.entries .object first) text)
    (found : nextMember first (text ++ after) = .ok (.closed rest)) :
    rest = after ∧ AnyObject first [] text := by
  cases valid with
  | closed blank =>
      rw [List.append_assoc] at found
      cases (nextMemberClosed blank first after).symm.trans found
      exact ⟨rfl, .closed blank⟩
  | member between _ _ _ _ _ =>
      rw [List.append_assoc, List.cons_append] at found
      cases (nextMemberLead between _).symm.trans found

@[simp] theorem keyNamed {key name} (named : Quoted key name []) (rest : List Char) :
    string [] (key ++ rest) = .ok (name, rest) :=
  stringExact.mpr (quotedContinued named rest)

@[simp] theorem colonBlank {gap : List Char} (blank : space gap = []) (text : List Char) :
    colon (gap ++ ':' :: text) = .ok text :=
  colonExact.mpr (spaceMark blank rfl text)

end Record

theorem memberApart {key key' name name' gap₁ gap₁' gap₂ gap₂' value value' text text' : List Char}
    (named : Quoted key name []) (named' : Quoted key' name' [])
    (blank₁ : space gap₁ = []) (blank₁' : space gap₁' = [])
    (blank₂ : space gap₂ = []) (blank₂' : space gap₂' = [])
    (one : Valid .value value) (other : Valid .value value') (ends : Ends text) (ends' : Ends text')
    (same : key ++ (gap₁ ++ ':' :: (gap₂ ++ (value ++ text))) =
      key' ++ (gap₁' ++ ':' :: (gap₂' ++ (value' ++ text')))) :
    name = name' ∧ value = value' ∧ text = text' := by
  have names := Record.keyNamed named (gap₁ ++ ':' :: (gap₂ ++ (value ++ text)))
  rw [same, Record.keyNamed named'] at names
  obtain ⟨rfl, behind⟩ := Prod.mk.inj (Except.ok.inj names)
  have values := Record.colonBlank blank₁ (gap₂ ++ (value ++ text))
  rw [← behind, Record.colonBlank blank₁'] at values
  have spaced := congrArg space (Except.ok.inj values)
  rw [spaceBlank blank₂', spaceBlank blank₂, valueSpace other, valueSpace one] at spaced
  exact ⟨rfl, valueApart one other ends ends' spaced.symm⟩

theorem objectMember {first given} {lead letters gap gap' value text : List Char}
    (between : Lead first lead) (key : Letters letters) (blank : space gap = [])
    (blank' : space gap' = []) (one : Valid .value value)
    (others : Valid (.entries .object false) text)
    (object : AnyObject first given
      (lead ++ '"' :: (letters ++ (gap ++ ':' :: (gap' ++ (value ++ text)))))) :
    ∃ name members, given = (name, value) :: members ∧ Quoted letters name.toList [] ∧
      AnyObject false members text := by
  have here := Record.nextMemberLead between (letters ++ (gap ++ ':' :: (gap' ++ (value ++ text))))
  generalize lead ++ _ = whole at here object
  cases object with
  | closed blank₁ =>
      rw [Record.nextMemberClosed blank₁] at here
      cases here
  | @member _ _ key₁ name gap₁ gap₁' value₁ members text₁ between₁ named blank₁ blank₁' one₁ others₁ =>
      rw [Record.nextMemberLead between₁] at here
      have fronts := Record.Member.key.inj (Except.ok.inj here)
      have quoted := quotedContinued named (gap₁ ++ ':' :: (gap₁' ++ (value₁ ++ text₁)))
      rw [fronts] at quoted
      have named' := (lettersQuoted key quoted).2
      have ends := entriesEnds others []
      have ends₁ := objectEnds others₁ []
      rw [List.append_nil] at ends ends₁
      obtain ⟨_, rfl, rfl⟩ :=
        memberApart named named' blank₁ blank blank₁' blank' one₁ one ends₁ ends fronts
      exact ⟨name, members, rfl, named', others₁⟩

theorem objectUnique {first members members' text} (one : AnyObject first members text)
    (other : AnyObject first members' text) : members = members' := by
  induction one generalizing members' with
  | @closed first gap blank =>
      have here := Record.nextMemberClosed blank first []
      generalize gap ++ _ = whole at here other
      cases other with
      | closed _ => rfl
      | member between _ _ _ _ _ =>
          rw [Record.nextMemberLead between] at here
          cases here
  | member between named blank blank' one others ih =>
      obtain ⟨name', members', rfl, named', others'⟩ :=
        objectMember between (quotedWhole named) blank blank' one (objectValid others) other
      have names := Record.keyNamed named []
      rw [Record.keyNamed named'] at names
      have same := (Prod.mk.inj (Except.ok.inj names)).1
      rw [String.toList_inj.mp same, ih others']

namespace Record

def known (r : Record α) (members : List (String × List Char)) : List (String × List Char) :=
  members.filter fun member => (r.field? member.1).isSome

@[simp] theorem knownField {r : Record α} {name value field} (known : r.field? name = some field)
    (members) : r.known ((name, value) :: members) = (name, value) :: r.known members := by
  simp [Record.known, known]

@[simp] theorem knownOther {r : Record α} {name value} (unknown : r.field? name = none) (members) :
    r.known ((name, value) :: members) = r.known members := by
  simp [Record.known, unknown]

def Filled (r : Record α) (given : List (String × List Char)) (x : α) : Prop :=
  ∃ seen, r.Fills [] r.default (r.known given) seen x ∧ r.missing seen = none

def Spaced (r : Record α) : Prop :=
  ∀ field ∈ r.fields, ∀ x text, field.update x (space text) = field.update x text

theorem gapSkipped {r : Record α} (spaced : r.Spaced) {name field}
    (known : r.field? name = some field) (x : α) {gap : List Char} (blank : space gap = [])
    (text : List Char) : field.update x (gap ++ text) = field.update x text := by
  have same := spaced field (List.mem_of_find?_eq_some known) x
  rw [← same, spaceBlank blank, same]

theorem membersFilled {r : Record α} (spaced : r.Spaced) {holds : String → List Char → Prop}
    (values : ∀ {name value}, holds name value → r.field? name = none → Valid .value value)
    {first given text} (object : Object holds first given text) {seen x seen' y}
    (fills : r.Fills seen x (r.known given) seen' y) (complete : r.missing seen' = none)
    {gap : List Char} (blank : space gap = []) {fuel : Nat} (enough : given.length < fuel)
    (after : List Char) :
    r.members fuel first seen x (gap ++ (text ++ after)) = .ok (y, after) := by
  induction object generalizing fuel seen x gap with
  | @closed first gap' blank' =>
      cases fuel with
      | zero => contradiction
      | succ fuel =>
          cases fills
          have blanks : space (gap ++ gap') = [] := by simp [blank, blank']
          have found := nextMemberClosed blanks first after
          rw [List.append_assoc] at found
          rw [List.append_assoc]
          exact membersExact.mpr (.closed found complete)
  | @member first lead key name gap₁ gap₂ value later text between named blank₁ blank₂ one others
      ih =>
      cases fuel with
      | zero => contradiction
      | succ fuel =>
          have fewer : later.length < fuel := Nat.lt_of_succ_lt_succ enough
          have front := nextMemberLead (leadGap between blank)
            (key ++ (gap₁ ++ ':' :: (gap₂ ++ (value ++ (text ++ after)))))
          have keyed := keyNamed named (gap₁ ++ ':' :: (gap₂ ++ (value ++ (text ++ after))))
          have mark := colonBlank blank₁ (gap₂ ++ (value ++ (text ++ after)))
          have ends := objectEnds others after
          simp only [List.append_assoc, List.cons_append] at front ⊢
          apply membersExact.mpr
          cases known : r.field? name with
          | none =>
              rw [knownOther known] at fills
              have passed := skipValueValid blank₂ (values one known) ends
              rw [← String.ofList_toList (s := name)] at known
              exact .other front keyed mark known passed (ih fills (rfl : space [] = []) fewer)
          | some field =>
              rw [knownField known] at fills
              cases fills with
              | member here fresh spelled rest =>
                  cases known.symm.trans here
                  obtain ⟨gap₃, blank₃, taken⟩ := spelled _ ends
                  rw [← gapSkipped spaced known _ blank₂] at taken
                  have left := ih rest blank₃ fewer
                  rw [← String.ofList_toList (s := name)] at known fresh left
                  exact .known front keyed mark known fresh taken left

@[simp] theorem readBrace (r : Record α) (text : List Char) :
    r.read ('\x7b' :: text) = r.members (text.length + 1) true [] r.default text := rfl

@[simp] theorem readBracket (r : Record α) (text : List Char) :
    r.read ('[' :: text) = r.positions r.fields 0 r.default text := rfl

theorem objectFilled {r : Record α} (spaced : r.Spaced) {holds : String → List Char → Prop}
    (values : ∀ {name value}, holds name value → r.field? name = none → Valid .value value)
    {given text} (object : Object holds true given text) {seen x}
    (fills : r.Fills [] r.default (r.known given) seen x) (complete : r.missing seen = none)
    (after : List Char) : r.read ('\x7b' :: text ++ after) = .ok (x, after) := by
  have enough : given.length < (text ++ after).length + 1 := by
    have shorter := objectLength object
    rw [List.length_append]
    omega
  rw [List.cons_append, readBrace]
  exact membersFilled spaced values object fills complete (rfl : space [] = []) enough after

theorem writtenObject {holds : String → List Char → Prop} {given : List (String × List Char)}
    (all : ∀ member ∈ given, holds member.1 member.2) (first : Bool) :
    Object holds first given (listed first (memberTexts given) ++ ['\x7d']) := by
  induction given generalizing first with
  | nil => exact @Object.closed holds first [] rfl
  | cons member given ih =>
      obtain ⟨name, value⟩ := member
      obtain ⟨one, others⟩ := List.forall_mem_cons.mp all
      have written := @Object.member holds first _ _ name [] [] value _ _ (leadComma first)
        (escapedQuoted name.toList []) rfl rfl one (ih others false)
      simpa [memberTexts, listed, writeMember, writeString] using written

theorem allKnown {r : Record α} {seen x given seen' y} (fills : r.Fills seen x given seen' y) :
    ∀ member ∈ given, (r.field? member.1).isSome := by
  induction fills with
  | done => simp
  | member known _ _ _ ih => exact List.forall_mem_cons.mpr ⟨by rw [known]; rfl, ih⟩

theorem objectSpelled {r : Record α} (spaced : r.Spaced) {given seen y}
    (fills : r.Fills [] r.default given seen y) (complete : r.missing seen = none) :
    Spells r.read (writeObject (memberTexts given)) y := by
  intro after _
  have object := @writtenObject (fun name _ => (r.field? name).isSome) _ (allKnown fills) true
  have whole : r.known given = given := List.filter_eq_self.mpr (allKnown fills)
  rw [writeObjectListed]
  refine ⟨[], rfl, objectFilled spaced ?_ object (by rwa [whole]) complete after⟩
  intro name value known unknown
  rw [unknown] at known
  contradiction

def Confined (r : Record α) : Prop := ∀ field ∈ r.fields, ∀ x, Json.Confined (field.update x)

theorem Confined.allSpaced {r : Record α} (confined : r.Confined) : r.Spaced :=
  fun field member x => (confined field member x).spaced

theorem memberSource {first} {text after key name tail rest : List Char}
    (valid : Valid (.entries .object first) text)
    (found : nextMember first (text ++ after) = .ok (.key key))
    (quoted : string [] key = .ok (name, tail)) (mark : colon tail = .ok rest) :
    ∃ gap value behind, rest = gap ++ (value ++ (behind ++ after)) ∧ space gap = [] ∧
      Valid .value value ∧ Valid (.entries .object false) behind ∧
      ∀ {given}, AnyObject false given behind →
        AnyObject first ((String.ofList name, value) :: given) text := by
  cases valid with
  | closed blank =>
      rw [List.append_assoc] at found
      cases (nextMemberClosed blank first after).symm.trans found
  | @member _ lead letters gap gap' value behind between written blank blank' one others =>
      simp only [List.append_assoc, List.cons_append] at found
      cases (nextMemberLead between _).symm.trans found
      obtain ⟨rfl, exact⟩ := lettersQuoted written (stringExact.mp quoted)
      cases (colonBlank blank _).symm.trans mark
      rw [← String.toList_ofList (l := name)] at exact
      exact ⟨gap', value, behind, rfl, blank', one, others, .member between exact blank blank' one⟩

theorem membersSource {r : Record α} (confined : r.Confined) {fuel first seen x text after y rest}
    (valid : Valid (.entries .object first) text)
    (ok : r.members fuel first seen x (text ++ after) = .ok (y, rest)) :
    rest = after ∧ ∃ given seen', AnyObject first given text ∧
      r.Fills seen x (r.known given) seen' y ∧ r.missing seen' = none := by
  induction fuel generalizing first seen x text with
  | zero => contradiction
  | succ fuel ih =>
      cases membersExact.mp ok with
      | closed found complete =>
          obtain ⟨same, object⟩ := nextMemberEnd valid found
          exact ⟨same, [], seen, object, .done, complete⟩
      | other found quoted mark unknown passed left =>
          obtain ⟨gap, value, behind, rfl, blank, one, later, extended⟩ :=
            memberSource valid found quoted mark
          have ends := entriesEnds later after
          cases (skipValueValid blank one ends).symm.trans passed
          obtain ⟨same, given, seen', object, fills, complete⟩ := ih later left
          refine ⟨same, _, seen', extended object, ?_, complete⟩
          rwa [knownOther unknown]
      | known found quoted mark known fresh taken left =>
          obtain ⟨gap, value, behind, rfl, blank, one, later, extended⟩ :=
            memberSource valid found quoted mark
          have ends := entriesEnds later after
          have kept := confined _ (List.mem_of_find?_eq_some known) x
          rw [kept.gapped blank] at taken
          obtain ⟨rfl, _⟩ := kept.kept one ends taken
          obtain ⟨same, given, seen', object, fills, complete⟩ := ih later left
          refine ⟨same, _, seen', extended object, ?_, complete⟩
          rw [knownField known]
          exact .member known fresh (kept.spells one ends taken) fills

theorem positionsSource {r : Record α} {fields : List (Field α)}
    (confined : ∀ field ∈ fields, ∀ x, Json.Confined (field.update x)) {index x text after y rest}
    (valid : Valid (.entries .list (index = 0)) text)
    (ok : r.positions fields index x (text ++ after) = .ok (y, rest)) :
    rest = after ∧ ∀ after', r.positions fields index x (text ++ after') = .ok (y, after') := by
  induction fields generalizing index x text with
  | nil =>
      simp only [positions, bindOk] at ok ⊢
      obtain ⟨tail, close, same⟩ := ok
      cases same
      obtain ⟨same, last⟩ := closeListSource valid close
      have closed := closeListFilled last (rfl : space [] = [])
      exact ⟨same, fun after' => ⟨_, closed after', rfl⟩⟩
  | cons field fields ih =>
      obtain ⟨first, others⟩ := List.forall_mem_cons.mp confined
      cases positionsExact.mp ok with
      | closed found partly =>
          obtain ⟨same, last⟩ := nextItemEnd valid found
          have closed := closeListFilled last (rfl : space [] = [])
          have bracket (after' : List Char) := closeListExact.mp (closed after')
          exact ⟨same, fun after' =>
            positionsExact.mpr (.closed (nextItemExact.mpr (.closed (bracket after'))) partly)⟩
      | @item _ z _ _ _ found taken left =>
          obtain ⟨value, behind, rfl, one, later, here, _⟩ := nextItemSource valid found
          have ends (after' : List Char) := entriesEnds later after'
          obtain ⟨rfl, anywhere⟩ := (first x).kept one (ends after) taken
          have next : Valid (.entries .list (index + 1 = 0)) behind := by simpa using later
          obtain ⟨same, all⟩ := ih others next left
          exact ⟨same, fun after' =>
            positionsExact.mpr (.item (here after') (anywhere _ (ends after')) (all after'))⟩

theorem readOpened {r : Record α} {text p} (ok : r.read text = .ok p) :
    ∃ (frame : Frame) (rest : List Char), space text = frame.opening :: rest := by
  unfold read at ok
  split at ok
  · exact ⟨.object, _, ‹_›⟩
  · exact ⟨.list, _, ‹_›⟩
  · contradiction

theorem readConfined {r : Record α} (confined : r.Confined) : Json.Confined r.read where
  spaced text := by
    unfold read
    rw [spaceTwice]
  kept {value x after rest} valid ends ok := by
    obtain ⟨frame, tail, here⟩ := readOpened ok
    rw [valueSpace valid] at here
    obtain ⟨c, text, same, _⟩ := valueStart valid
    rw [same, List.cons_append] at here
    obtain ⟨rfl, rfl⟩ := List.cons.inj here
    have entries := valueOpened valid same
    subst same
    cases frame with
    | list =>
        have start : Valid (.entries .list ((0 : Nat) = 0)) text := entries
        obtain ⟨same, anywhere⟩ :=
          positionsSource confined start ((readBracket r (text ++ after)).symm.trans ok)
        exact ⟨same, fun after' _ => (readBracket r (text ++ after')).trans (anywhere after')⟩
    | object =>
        obtain ⟨same, given, seen, object, fills, complete⟩ :=
          membersSource confined entries ((readBrace r (text ++ after)).symm.trans ok)
        exact ⟨same, fun after' _ =>
          objectFilled confined.allSpaced (fun one _ => one) object fills complete after'⟩

theorem objectExact {r : Record α} (confined : r.Confined) {given text} {x : α}
    (object : AnyObject true given text) :
    Spells r.read ('\x7b' :: text) x ↔ r.Filled given x := by
  constructor
  · intro spelled
    obtain ⟨gap, _, ok⟩ := spelled [] trivial
    obtain ⟨_, given', seen, object', fills, complete⟩ :=
      membersSource confined (objectValid object) ((readBrace r (text ++ [])).symm.trans ok)
    rw [objectUnique object object']
    exact ⟨seen, fills, complete⟩
  · intro filled
    obtain ⟨seen, fills, complete⟩ := filled
    exact fun after _ => ⟨[], rfl,
      objectFilled confined.allSpaced (fun one _ => one) object fills complete after⟩

end Record

theorem Field.ofConfined {name} {read : Reader β} (confined : Confined read) (put : α → β → α)
    (x : α) : Confined ((Field.of name read put).update x) := confined.mapped (put x)

inductive ObjectText (given : List (String × List Char)) (text : String) : Prop where
  | object {gap inside gap'} (blank : space gap = []) (blank' : space gap' = [])
      (object : AnyObject true given inside)
      (same : text.toList = gap ++ ('\x7b' :: inside ++ gap')) : ObjectText given text

theorem writtenText {given : List (String × List Char)}
    (all : ∀ member ∈ given, Valid .value member.2) :
    ObjectText given (String.ofList (writeObject (Record.memberTexts given))) := by
  have object : AnyObject true given _ := Record.writtenObject all true
  exact @ObjectText.object given _ [] _ [] rfl rfl object (by simp [writeObjectListed])

theorem objectTextExact {r : Record α} (confined : r.Confined) {given} {text : String} {x : α}
    (written : ObjectText given text) : document r.read text = .ok x ↔ r.Filled given x := by
  obtain @⟨gap, inside, gap', blank, blank', object, same⟩ := written
  have kept := Record.readConfined confined
  rw [kept.document blank blank' (objectValue object) same, Record.objectExact confined object]

end TileCost.Json
