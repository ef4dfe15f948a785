import TileCost.Proofs.Json.Confined

/-! Lists by their elements, in the order of the text. What a reader finds in a list is what
the reader of the elements finds in each of them, with any white space around it; a reader
of fixed length finds something just in the lists of that length. -/
namespace TileCost.Json
open Outcome (bindOk)

variable {α γ δ : Type}

inductive Elements (holds : List Char → Prop) : Bool → List (List Char) → List Char → Prop where
  | closed {first gap} (blank : space gap = []) : Elements holds first [] (gap ++ [']'])
  | element {first lead value texts text} (between : Lead first lead) (one : holds value)
      (others : Elements holds false texts text) :
      Elements holds first (value :: texts) (lead ++ (value ++ text))

abbrev AnyList : Bool → List (List Char) → List Char → Prop := Elements (Valid .value)

theorem listValid {first texts text} (list : AnyList first texts text) :
    Valid (.entries .list first) text := by
  induction list with
  | closed blank => exact .closed blank
  | element between one _ ih => exact .item between one ih

theorem listValue {texts text} (list : AnyList true texts text) : Valid .value ('[' :: text) :=
  (.opened (listValid list) : Valid .value (Frame.list.opening :: text))

theorem elementsHold {holds first texts text} (list : Elements holds first texts text) :
    ∀ value ∈ texts, holds value := by
  induction list with
  | closed => simp
  | element _ one _ ih => exact List.forall_mem_cons.mpr ⟨one, ih⟩

theorem elementsEnds {holds texts text} (list : Elements holds false texts text)
    (after : List Char) : Ends (text ++ after) := by
  cases list with
  | closed blank =>
      rw [List.append_assoc]
      exact gapEnds blank ⟨rfl, by decide, rfl⟩
  | element between _ _ =>
      rw [List.append_assoc]
      exact leadEnds between _

theorem elementsLength {holds first texts text} (list : Elements holds first texts text) :
    texts.length < text.length + first.toNat := by
  induction list with
  | closed => simp
  | element between _ _ ih =>
      simp only [List.length_cons, List.length_append, Bool.toNat_false] at ih ⊢
      cases between with
      | first _ => simp only [Bool.toNat_true]; omega
      | later _ _ => simp only [List.length_append, List.length_cons]; omega

theorem writtenElements {holds texts} (all : ∀ text ∈ texts, holds text) (first : Bool) :
    Elements holds first texts (listed first texts ++ [']']) := by
  induction texts generalizing first with
  | nil => exact @Elements.closed holds first [] rfl
  | cons text texts ih =>
      obtain ⟨one, others⟩ := List.forall_mem_cons.mp all
      simpa [listed] using Elements.element (leadComma first) one (ih others false)

theorem writtenValue {texts} (all : ∀ text ∈ texts, Valid .value text) :
    Valid .value (writeList texts) := by
  rw [writeListListed]
  exact listValue (writtenElements all true)

@[simp] theorem nextItemClosed {gap : List Char} (blank : space gap = []) (first : Bool)
    (after : List Char) : nextItem first (gap ++ ']' :: after) = .ok (.closed after) :=
  nextItemExact.mpr (.closed (spaceMark blank rfl after))

theorem nextItemLead {first lead} (between : Lead first lead) {text tail : List Char} {c : Char}
    (here : space text = c :: tail) (inside : c ≠ ']') :
    nextItem first (lead ++ text) = .ok (.item (c :: tail)) := by
  apply nextItemExact.mpr
  cases between with
  | first blank => exact .item rfl (by simp [blank, here]) inside
  | @later gap gap' blank blank' =>
      have comma := spaceMark blank (rfl : isSpace ',' = false) (gap' ++ text)
      exact .next rfl (by simpa using comma) (by simp [blank', here]) inside

theorem nextItemValue {first lead} (between : Lead first lead) {value : List Char}
    (valid : Valid .value value) (text : List Char) :
    nextItem first (lead ++ (value ++ text)) = .ok (.item (value ++ text)) := by
  obtain ⟨c, tail, rfl, mark, inside⟩ := valueStart valid
  exact nextItemLead between (spaceStopped mark (tail ++ text)) inside

theorem nextItemEnd {first} {text after rest : List Char} (valid : Valid (.entries .list first) text)
    (found : nextItem first (text ++ after) = .ok (.closed rest)) :
    rest = after ∧ AnyList first [] text := by
  cases valid with
  | closed blank =>
      rw [List.append_assoc] at found
      cases (nextItemClosed blank first after).symm.trans found
      exact ⟨rfl, .closed blank⟩
  | item between one behind =>
      rw [List.append_assoc, List.append_assoc] at found
      cases (nextItemValue between one _).symm.trans found

theorem nextItemSource {first} {text after item : List Char}
    (valid : Valid (.entries .list first) text)
    (found : nextItem first (text ++ after) = .ok (.item item)) :
    ∃ value behind, item = value ++ (behind ++ after) ∧ Valid .value value ∧
      Valid (.entries .list false) behind ∧
      (∀ after', nextItem first (text ++ after') = .ok (.item (value ++ (behind ++ after')))) ∧
      ∀ {texts}, AnyList false texts behind → AnyList first (value :: texts) text := by
  cases valid with
  | closed blank =>
      rw [List.append_assoc] at found
      cases (nextItemClosed blank first after).symm.trans found
  | @item _ lead value behind between one others =>
      have anywhere (after' : List Char) : nextItem first (lead ++ (value ++ behind) ++ after') =
          .ok (.item (value ++ (behind ++ after'))) := by
        rw [List.append_assoc, List.append_assoc]
        exact nextItemValue between one _
      cases (anywhere after).symm.trans found
      exact ⟨_, _, rfl, one, others, anywhere, .element between one⟩

theorem valueApart {value value' text text' : List Char} (one : Valid .value value)
    (other : Valid .value value') (ends : Ends text) (ends' : Ends text')
    (same : value ++ text = value' ++ text') : value = value' ∧ text = text' := by
  have rests := skipValueValid (rfl : space [] = []) one ends
  rw [same, skipValueValid (rfl : space [] = []) other ends'] at rests
  cases rests
  exact ⟨List.append_cancel_right same, rfl⟩

theorem listUnique {first texts texts' text} (one : AnyList first texts text)
    (other : AnyList first texts' text) : texts = texts' := by
  generalize same : text = text' at other
  induction one generalizing texts' text' with
  | @closed first gap blank =>
      have here := nextItemClosed blank first []
      rw [same] at here
      cases other with
      | closed _ => rfl
      | element between one _ =>
          rw [nextItemValue between one] at here
          cases here
  | @element first lead value texts text between one others ih =>
      have here := nextItemValue between one text
      rw [same] at here
      cases other with
      | closed blank =>
          rw [nextItemClosed blank] at here
          cases here
      | @element _ lead' value' texts' text' between' one' others' =>
          rw [nextItemValue between' one'] at here
          have fronts := Next.item.inj (Except.ok.inj here)
          have ends := elementsEnds others []
          have ends' := elementsEnds others' []
          rw [List.append_nil] at ends ends'
          obtain ⟨rfl, rfl⟩ := valueApart one' one ends' ends fronts
          rw [ih _ rfl others']

def ListText (holds : List Char → α → Prop) (text : List Char) (xs : List α) : Prop :=
  ∃ inside texts, text = '[' :: inside ∧ AnyList true texts inside ∧ List.Forall₂ holds texts xs

theorem ListText.each {holds : List Char → α → Prop} {text : List Char} {xs : List α}
    (list : ListText holds ('[' :: text) xs) {texts} (elements : AnyList true texts text) :
    texts.length = xs.length ∧ ∀ value ∈ texts, ∃ x ∈ xs, holds value x := by
  obtain ⟨inside, texts', same, list, all⟩ := list
  cases same
  obtain rfl := listUnique elements list
  refine ⟨all.length_eq, ?_⟩
  clear elements list
  induction all with
  | nil => simp
  | @cons value x values xs here _ ih =>
      rw [List.forall_mem_cons]
      refine ⟨⟨x, List.mem_cons_self, here⟩, fun value member => ?_⟩
      obtain ⟨x, among, here⟩ := ih value member
      exact ⟨x, List.mem_cons_of_mem _ among, here⟩

/- A reader of whole lists that goes by a reader of their elements: of a list it finds `y`
just if the `elements` of `y` are what the elements of the list spell. -/
structure Elementwise (read : Reader α) (whole : Reader γ) (elements : γ → List α) : Prop where
  spaced : ∀ text, whole (space text) = whole text
  opened : ∀ {text p}, whole text = .ok p → ∃ rest, space text = '[' :: rest
  source : ∀ {text after y rest}, Valid (.entries .list true) text →
    whole ('[' :: (text ++ after)) = .ok (y, rest) →
      rest = after ∧ ∃ texts, AnyList true texts text ∧ List.Forall₂ (Spells read) texts (elements y)
  filled : ∀ {holds texts text y}, Elements holds true texts text →
    List.Forall₂ (Spells read) texts (elements y) →
      ∀ after, whole ('[' :: (text ++ after)) = .ok (y, after)

namespace Elementwise

variable {read : Reader α} {whole : Reader γ} {elements : γ → List α}

theorem bracket (reads : Elementwise read whole elements) {value after : List Char} {p}
    (valid : Valid .value value) (ok : whole (value ++ after) = .ok p) :
    ∃ text, value = '[' :: text ∧ Valid (.entries .list true) text := by
  obtain ⟨rest, here⟩ := reads.opened ok
  obtain ⟨c, text, same, _⟩ := valueStart valid
  rw [valueSpace valid, same, List.cons_append] at here
  obtain ⟨rfl, _⟩ := List.cons.inj here
  exact ⟨text, same, (valueOpened valid same : Valid (.entries .list true) text)⟩

theorem confined (reads : Elementwise read whole elements) : Confined whole where
  spaced := reads.spaced
  kept valid _ ok := by
    obtain ⟨text, rfl, inside⟩ := reads.bracket valid ok
    obtain ⟨same, texts, list, spelled⟩ := reads.source inside ok
    exact ⟨same, fun after _ => reads.filled list spelled after⟩

theorem spells (reads : Elementwise read whole elements) {holds texts text y}
    (list : Elements holds true texts text) (spelled : List.Forall₂ (Spells read) texts (elements y)) :
    Spells whole ('[' :: text) y :=
  fun after _ => ⟨[], rfl, reads.filled list spelled after⟩

theorem written (reads : Elementwise read whole elements) {texts : List (List Char)} {y : γ}
    (spelled : List.Forall₂ (Spells read) texts (elements y)) : Spells whole (writeList texts) y := by
  have each : ∀ text ∈ texts, Anything text := fun _ _ => trivial
  rw [writeListListed]
  exact reads.spells (writtenElements each true) spelled

theorem textExact (reads : Elementwise read whole elements) {holds : List Char → α → Prop}
    (each : ∀ {text x}, Valid .value text → (Spells read text x ↔ holds text x)) {text : List Char}
    (valid : Valid .value text) {y : γ} : Spells whole text y ↔ ListText holds text (elements y) := by
  constructor
  · intro spelled
    obtain ⟨gap, _, ok⟩ := spelled [] trivial
    obtain ⟨inside, same, entries⟩ := reads.bracket valid ok
    subst same
    obtain ⟨_, texts, list, spelled⟩ := reads.source entries ok
    have all := (List.forall₂_and_left _ _).mpr ⟨elementsHold list, spelled⟩
    exact ⟨inside, texts, rfl, list, all.imp fun _ _ both => (each both.1).mp both.2⟩
  · intro source
    obtain ⟨inside, texts, rfl, list, all⟩ := source
    have all := (List.forall₂_and_left _ _).mpr ⟨elementsHold list, all⟩
    exact reads.spells list (all.imp fun _ _ both => (each both.1).mpr both.2)

theorem mapped (reads : Elementwise read whole elements) {f : γ → δ} {elements' : δ → List α}
    (onto : ∀ z, ∃ y, f y = z) (same : ∀ y, elements' (f y) = elements y) :
    Elementwise read (fun text => do
      let (x, rest) ← whole text
      return (f x, rest)) elements' where
  spaced text := by rw [reads.spaced]
  opened ok := by
    obtain ⟨p, taken, _⟩ := bindOk.mp ok
    exact reads.opened taken
  source valid ok := by
    obtain ⟨⟨y, tail⟩, taken, mapped⟩ := bindOk.mp ok
    cases mapped
    rw [same]
    exact reads.source valid taken
  filled {holds texts text z} list spelled after := by
    obtain ⟨y, rfl⟩ := onto z
    rw [same] at spelled
    exact bindOk.mpr ⟨_, reads.filled list spelled after, rfl⟩

end Elementwise

theorem Begins.taken {read : Reader α} (begins : Begins read) {value : List Char} {x : α}
    (spelled : Spells read value x) {first lead} (between : Lead first lead) {after : List Char}
    (ends : Ends after) : ∃ item gap, space gap = [] ∧
      nextItem first (lead ++ (value ++ after)) = .ok (.item item) ∧
      read item = .ok (x, gap ++ after) := by
  obtain ⟨_, _, alone⟩ := spelled [] trivial
  rw [List.append_nil] at alone
  obtain ⟨c, tail, here, inside⟩ := begins.inside alone
  obtain ⟨gap, blank, taken⟩ := spelled after ends
  have behind := spaceAt here after
  refine ⟨_, gap, blank, nextItemLead between behind inside, ?_⟩
  rw [← behind, begins.spaced, taken]

theorem itemsFilled {read : Reader α} (begins : Begins read) {holds first texts text}
    (list : Elements holds first texts text) {xs : List α}
    (spelled : List.Forall₂ (Spells read) texts xs) {done : List α} (start : done.isEmpty = first)
    {gap : List Char} (blank : space gap = []) {fuel : Nat} (enough : texts.length < fuel)
    (after : List Char) :
    items read fuel done (gap ++ (text ++ after)) = .ok (done.reverse ++ xs, after) := by
  induction list generalizing xs done gap fuel with
  | @closed first gap' blank' =>
      cases spelled
      cases fuel with
      | zero => contradiction
      | succ fuel =>
          have blanks : space (gap ++ gap') = [] := by simp [blank, blank']
          have found := nextItemClosed blanks done.isEmpty after
          rw [List.append_assoc] at found
          rw [List.append_nil, List.append_assoc]
          exact itemsExact.mpr (.closed found)
  | @element first lead value texts text between one others ih =>
      cases spelled with
      | @cons _ x _ xs here behind =>
          cases fuel with
          | zero => contradiction
          | succ fuel =>
              obtain ⟨item, gap', blank', found, taken⟩ :=
                begins.taken here (leadGap between blank) (elementsEnds others after)
              have left := ih behind (rfl : (x :: done).isEmpty = false) blank'
                (Nat.lt_of_succ_lt_succ enough)
              rw [List.append_assoc, ← start] at found
              rw [List.reverse_cons, List.append_assoc] at left
              rw [List.append_assoc, List.append_assoc]
              exact itemsExact.mpr (.item found taken left)

theorem itemsSource {read : Reader α} (confined : Confined read) {fuel first text after ys rest}
    {done : List α} (start : done.isEmpty = first) (valid : Valid (.entries .list first) text)
    (ok : items read fuel done (text ++ after) = .ok (ys, rest)) :
    rest = after ∧ ∃ texts xs, AnyList first texts text ∧ List.Forall₂ (Spells read) texts xs ∧
      ys = done.reverse ++ xs := by
  induction fuel generalizing first done text with
  | zero => contradiction
  | succ fuel ih =>
      cases itemsExact.mp ok with
      | closed found =>
          rw [start] at found
          obtain ⟨same, list⟩ := nextItemEnd valid found
          exact ⟨same, [], [], list, .nil, (List.append_nil _).symm⟩
      | @item _ x _ _ _ found taken left =>
          rw [start] at found
          obtain ⟨value, behind, rfl, one, later, _, list⟩ := nextItemSource valid found
          have ends := entriesEnds later after
          obtain ⟨rfl, _⟩ := confined.kept one ends taken
          obtain ⟨same, texts, xs, others, spelled, rfl⟩ :=
            ih (rfl : (x :: done).isEmpty = false) later left
          refine ⟨same, _, _, list others, .cons (confined.spells one ends taken) spelled, ?_⟩
          rw [List.reverse_cons, List.append_assoc]
          rfl

theorem listElementwise {read : Reader α} (begins : Begins read) (confined : Confined read) :
    Elementwise read (list read) id where
  spaced := listSpaced read
  opened ok := by
    unfold list at ok
    split at ok
    · exact ⟨_, ‹_›⟩
    · contradiction
  source valid ok := by
    obtain ⟨same, texts, xs, all, spelled, rfl⟩ := itemsSource confined (rfl : [].isEmpty = true) valid ok
    exact ⟨same, texts, all, spelled⟩
  filled {holds texts text xs} all spelled after := by
    have enough : texts.length < (text ++ after).length + 1 := by
      have shorter := elementsLength all
      rw [Bool.toNat_true] at shorter
      rw [List.length_append]
      omega
    exact itemsFilled begins all spelled rfl (rfl : space [] = []) enough after

theorem elementFilled {read : Reader α} (begins : Begins read) {holds first value texts text}
    (list : Elements holds first (value :: texts) text) {x : α} (spelled : Spells read value x)
    (index : Nat) (start : decide (index = 0) = first) {gap : List Char} (blank : space gap = [])
    (expected : String) (after : List Char) :
    ∃ gap' text', space gap' = [] ∧ Elements holds false texts text' ∧
      element read expected index (gap ++ (text ++ after)) = .ok (x, gap' ++ (text' ++ after)) := by
  cases list with
  | @element _ lead _ _ text between one others =>
      obtain ⟨item, gap', blank', found, taken⟩ :=
        begins.taken spelled (leadGap between blank) (elementsEnds others after)
      refine ⟨gap', text, blank', others, ?_⟩
      rw [List.append_assoc, ← start] at found
      rw [List.append_assoc, List.append_assoc]
      exact elementExact.mpr ⟨item, found, taken⟩

theorem closeListFilled {holds first text} (list : Elements holds first [] text)
    {gap : List Char} (blank : space gap = []) (after : List Char) :
    closeList (gap ++ (text ++ after)) = .ok after := by
  cases list with
  | closed blank' =>
      rw [List.append_assoc, closeListExact, spaceBlank blank]
      exact spaceMark blank' rfl after

theorem elementSource {read : Reader α} (confined : Confined read) {expected index first}
    {text after rest : List Char} {x : α} (valid : Valid (.entries .list first) text)
    (ok : element read expected index (text ++ after) = .ok (x, rest))
    (start : decide (index = 0) = first) :
    ∃ value text', rest = text' ++ after ∧ Valid (.entries .list false) text' ∧
      Spells read value x ∧ ∀ {texts}, AnyList false texts text' →
        AnyList first (value :: texts) text := by
  obtain ⟨item, found, taken⟩ := elementExact.mp ok
  rw [start] at found
  obtain ⟨value, behind, rfl, one, later, _, list⟩ := nextItemSource valid found
  have ends := entriesEnds later after
  obtain ⟨rfl, _⟩ := confined.kept one ends taken
  exact ⟨value, behind, rfl, later, confined.spells one ends taken, list⟩

theorem closeListSource {first} {text after rest : List Char}
    (valid : Valid (.entries .list first) text) (ok : closeList (text ++ after) = .ok rest) :
    rest = after ∧ AnyList first [] text :=
  nextItemEnd valid (nextItemExact.mpr (.closed (closeListExact.mp ok)))

theorem tripleElementwise {read : Reader α} (begins : Begins read) (confined : Confined read) :
    Elementwise read (triple read) fun (a, b, c) => [a, b, c] where
  spaced := (tripleBegins read).spaced
  opened ok := by
    obtain ⟨inside, _, _, _, here, _⟩ := tripleExact.mp ok
    exact ⟨inside, here⟩
  source valid ok := by
    obtain ⟨_, _, _, _, bracket, turns⟩ := tripleExact.mp ok
    cases (spaceStopped (rfl : isSpace '[' = false) _).symm.trans bracket
    obtain ⟨one, two, three, close⟩ := turns
    obtain ⟨text, t, rfl, behind, first, list⟩ := elementSource confined valid one rfl
    obtain ⟨text', u, rfl, behind', second, list'⟩ := elementSource confined behind two rfl
    obtain ⟨text'', v, rfl, behind'', third, list''⟩ := elementSource confined behind' three rfl
    obtain ⟨same, last⟩ := closeListSource behind'' close
    exact ⟨same, [text, text', text''], list (list' (list'' last)),
      .cons first (.cons second (.cons third .nil))⟩
  filled {holds texts text y} list spelled after := by
    obtain ⟨a, b, c⟩ := y
    obtain _ | ⟨first, _ | ⟨second, _ | ⟨third, _ | _⟩⟩⟩ := spelled
    have front : space [] = [] := rfl
    obtain ⟨gap, t, blank, list, one⟩ := elementFilled begins list first 0 rfl front _ after
    obtain ⟨gap', u, blank', list, two⟩ := elementFilled begins list second 1 rfl blank _ after
    obtain ⟨gap'', v, blank'', last, three⟩ := elementFilled begins list third 2 rfl blank' _ after
    have close := closeListFilled last blank'' after
    exact tripleExact.mpr ⟨_, _, _, _, spaceStopped rfl _, one, two, three, close⟩

end TileCost.Json
