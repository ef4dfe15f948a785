import TileCost.Proofs.Arrays
import TileCost.Proofs.Json.Names

/-! Heatmaps by the names of their members. The two arrays are where their names are, each
there once, with whatever else stands before, between and behind them; a text that does not
have them so, or has a key that is none, is refused as it stands, whatever the lengths are. -/
namespace TileCost.Heatmap
open Json

/-! What a file says of the arrays. -/

def SizeText (text : List Char) (size : UInt16) : Prop := text = writeNat size.toNat

def KeyText (text : List Char) (key : Key) : Prop := ListText SizeText text [key.m, key.n, key.k]

def ValueText (text : List Char) (value : Float32) : Prop :=
  ∃ (n : Numeral) (number : Number),
    n.Spelled text ∧ n.value [] = .ok number ∧ number.toFloat32 = value

abbrev KeysText : List Char → List Key → Prop := ListText KeyText

abbrev ValuesText : List Char → List Float32 → Prop := ListText ValueText

structure Arrays (given : List (String × List Char)) (h : Heatmap) : Prop where
  keys : Given given "keys" KeysText (some h.keys)
  values : Given given "values" ValuesText (some h.values)

theorem sizeExact {text : List Char} {size : UInt16} (valid : Valid .value text) :
    Spells natural16 text size ↔ SizeText text size := natural16Exact valid

theorem keyExact {text : List Char} {key : Key} (valid : Valid .value text) :
    Spells readKey text key ↔ KeyText text key := keyElementwise.textExact sizeExact valid

theorem keysExact {text : List Char} {keys : List Key} (valid : Valid .value text) :
    Spells (list readKey) text keys ↔ KeysText text keys :=
  keysElementwise.textExact keyExact valid

theorem valueExact {text : List Char} {value : Float32} (valid : Valid .value text) :
    Spells float32 text value ↔ ValueText text value := by
  rw [ValueText, float32, numberExact valid]
  simp only [Except.ok.injEq]

theorem valuesExact {text : List Char} {values : List Float32} (valid : Valid .value text) :
    Spells (list float32) text values ↔ ValuesText text values :=
  valuesElementwise.textExact valueExact valid

theorem recordExact {given inside} (object : AnyObject true given inside) {h : Heatmap} :
    record.Filled given h ↔ Arrays given h := by
  have valid {name text} (there : (name, text) ∈ given) : Valid .value text :=
    objectHold object _ there
  have keys (keys : List Key) : Given given "keys" (Spells (list readKey)) (some keys) ↔
      Given given "keys" KeysText (some keys) := Given.exact fun there => keysExact (valid there)
  have values (values : List Float32) :
      Given given "values" (Spells (list float32)) (some values) ↔
        Given given "values" ValuesText (some values) :=
    Given.exact fun there => valuesExact (valid there)
  rw [Record.filledBoth recordIndependent rfl (by decide) rfl keysDetermined valuesDetermined]
  simp only [keys, values]
  constructor
  · rintro ⟨keys, values, found, found', rfl⟩
    exact ⟨found, found'⟩
  · intro arrays
    exact ⟨_, _, arrays.keys, arrays.values, rfl⟩

def NoSize (text : List Char) : Prop := ∀ size : UInt16, ¬ SizeText text size

theorem noSizeLarge {n : Nat} (large : 65535 < n) : NoSize (writeNat n) := by
  intro size same
  have small := size.toNat_lt
  have equal := writtenAlike same
  omega

theorem noSizeOther {text : List Char} {c : Char} (member : c ∈ text)
    (other : c.isDigit = false) : NoSize text := by
  rintro size rfl
  rw [writtenDigit _ c member] at other
  contradiction

inductive Misshapen (given : List (String × List Char)) : Prop where
  | count {name} (known : name ∈ ["keys", "values"])
      (times : (named [name] given).length ≠ 1)
  | noList {inside texts text} (here : ("keys", '[' :: inside) ∈ given)
      (keys : AnyList true texts inside) (among : text ∈ texts) (other : text.head? ≠ some '[')
  | length {inside texts text parts} (here : ("keys", '[' :: inside) ∈ given)
      (keys : AnyList true texts inside) (among : '[' :: text ∈ texts)
      (key : AnyList true parts text) (length : parts.length ≠ 3)
  | component {inside texts text parts part} (here : ("keys", '[' :: inside) ∈ given)
      (keys : AnyList true texts inside) (among : '[' :: text ∈ texts)
      (key : AnyList true parts text) (within : part ∈ parts) (other : NoSize part)

theorem Arrays.key {given h} (arrays : Arrays given h) {inside texts text}
    (here : ("keys", '[' :: inside) ∈ given) (keys : AnyList true texts inside)
    (among : text ∈ texts) : ∃ key, KeyText text key := by
  obtain ⟨key, _, read⟩ := ((arrays.keys.here here).each keys).2 text among
  exact ⟨key, read⟩

theorem misshapenUnread {given h} (misshapen : Misshapen given) : ¬ Arrays given h := by
  intro arrays
  cases misshapen with
  | count known times =>
      simp only [List.mem_cons, List.not_mem_nil, or_false] at known
      rcases known with rfl | rfl
      · exact times arrays.keys.single
      · exact times arrays.values.single
  | noList here keys among other =>
      obtain ⟨key, _, _, rfl, _⟩ := arrays.key here keys among
      exact other rfl
  | length here keys among parts length =>
      obtain ⟨key, read⟩ := arrays.key here keys among
      exact length (read.each parts).1
  | component here keys among parts within other =>
      obtain ⟨key, read⟩ := arrays.key here keys among
      obtain ⟨size, _, written⟩ := (read.each parts).2 _ within
      exact other size written

theorem readExact {given text} (written : ObjectText given text) {h : Heatmap} :
    document record.read text = .ok h ↔ Arrays given h := by
  rw [objectTextExact recordConfined written]
  cases written with
  | object _ _ object _ => exact recordExact object

theorem unreadMalformed {text : String} (unread : ¬ ∃ h, document record.read text = .ok h) :
    ∃ e, ofJson text = .error (.malformed e) := by
  cases parsed : document record.read text with
  | error e => exact ⟨e, ofJsonMalformed parsed⟩
  | ok h => exact absurd ⟨h, parsed⟩ unread

theorem readByName :
    (∀ {given text}, ObjectText given text →
      (∀ h, Arrays given h →
        (h.keys.length = h.values.length → ofJson text = .ok h) ∧
        (h.keys.length ≠ h.values.length →
          ofJson text = .error (.lengths h.keys.length h.values.length))) ∧
      ((¬ ∃ h, Arrays given h) → ∃ e, ofJson text = .error (.malformed e)) ∧
      (Misshapen given → ∃ e, ofJson text = .error (.malformed e))) ∧
    ∀ {text}, ¬ DocumentText text → ∃ e, ofJson text = .error (.malformed e) := by
  constructor
  · intro given text written
    have exact {h} : document record.read text = .ok h ↔ Arrays given h := readExact written
    refine ⟨fun h arrays => ⟨fun same => ?_, fun differ => ?_⟩, fun unread => ?_, fun misshapen => ?_⟩
    · exact ofJsonExact.mpr ⟨exact.mpr arrays, same⟩
    · exact ofJsonLengths (exact.mpr arrays) differ
    · exact unreadMalformed fun ⟨h, read⟩ => unread ⟨h, exact.mp read⟩
    · exact unreadMalformed fun ⟨_, read⟩ => misshapenUnread misshapen (exact.mp read)
  · intro text other
    exact unreadMalformed fun ⟨_, read⟩ => other (documentSound recordSound read)

/- The other objects of the grammar: those without members to go by. -/
theorem undecodedMalformed {text} (undecoded : UndecodedText text) :
    ∃ e, ofJson text = .error (.malformed e) :=
  unreadMalformed fun ⟨h, read⟩ => undecodedUnread recordConfined undecoded h read

def scattered : String :=
  "\x7b\"values\" : [5],\"note\":\"\", \"keys\":[ [8,2 ,4]]\x7d\n"

def oneKeyFile (parts : List (List Char)) : String :=
  String.ofList (writeObject
    [writeMember "keys" (writeList [writeList parts]), writeMember "values" (writeList [])])

def zeroInFront : String := "\x7b\"keys\":[[08,2,4]],\"values\":[5]\x7d"

theorem keysNamed : Quoted "keys\"".toList "keys".toList [] := stringExact.mp (by decide +kernel)

theorem valuesNamed : Quoted "values\"".toList "values".toList [] :=
  stringExact.mp (by decide +kernel)

theorem fiveSpelled : ValueText (writeNat 5) 5 :=
  ⟨_, .natural 5, writtenSpelled 5, rfl, by decide +kernel⟩

theorem scatteredWritten : ∃ given, ObjectText given scattered ∧
    Arrays given ⟨[⟨8, 2, 4⟩], [5]⟩ := by
  have note : Quoted "note\"".toList "note".toList [] := stringExact.mp (by decide +kernel)
  -- the key is written with white space in front of it, and behind its second component
  have key : AnyList true [writeNat 8, writeNat 2, writeNat 4] "8,2 ,4]".toList :=
    .element (@Lead.first [] rfl) (writtenValid 8) <|
      .element (@Lead.later [] [] rfl rfl) (writtenValid 2) <|
        .element (@Lead.later [' '] [] rfl rfl) (writtenValid 4) (@Elements.closed _ _ [] rfl)
  have keys : AnyList true ["[8,2 ,4]".toList] " [8,2 ,4]]".toList :=
    .element (@Lead.first [' '] rfl) (listValue key) (@Elements.closed _ _ [] rfl)
  have values : AnyList true [writeNat 5] "5]".toList :=
    .element (@Lead.first [] rfl) (writtenValid 5) (@Elements.closed _ _ [] rfl)
  have last := lastMember (@Lead.later [] [' '] rfl rfl) keysNamed (rfl : space [] = [])
    (listValue keys)
  have between := @Object.member _ false [','] _ _ [] [] _ _ _ (@Lead.later [] [] rfl rfl) note
    rfl rfl (.string .close) last
  have object := @Object.member _ true [] _ _ [' '] [' '] _ _ _ (.first rfl) valuesNamed rfl rfl
    (listValue values) between
  refine ⟨_, @ObjectText.object _ scattered [] _ ['\n'] rfl rfl object (by decide +kernel), ?_, ?_⟩
  · have sizes : KeyText "[8,2 ,4]".toList ⟨8, 2, 4⟩ :=
      ⟨_, _, rfl, key, .cons rfl (.cons rfl (.cons rfl .nil))⟩
    exact .once (by simp [named]) ⟨_, _, rfl, keys, .cons sizes .nil⟩
  · exact .once (by simp [named]) ⟨_, _, rfl, values, .cons fiveSpelled .nil⟩

theorem oneKeyMisshapen {parts : List (List Char)} (valid : ∀ part ∈ parts, Valid .value part)
    {part : List Char} (within : part ∈ parts) (other : NoSize part) :
    ∃ given, ObjectText given (oneKeyFile parts) ∧ Misshapen given := by
  have key := writtenElements valid true
  have one := List.forall_mem_singleton.mpr (writtenValue valid)
  have keys := writtenElements one true
  refine ⟨[("keys", writeList [writeList parts]), ("values", writeList [])], writtenText ?_, ?_⟩
  · simp only [List.forall_mem_cons]
    exact ⟨writtenValue one, writtenValue (by simp), by simp⟩
  · refine .component ?_ keys (List.mem_singleton.mpr (writeListListed parts).symm) key within other
    rw [writeListListed [writeList parts]]
    exact List.mem_cons_self

theorem scatteredOnly :
    ofJson scattered = .ok ⟨[⟨8, 2, 4⟩], [5]⟩ ∧
    (∀ part ∈ [writeNat 65536, ['n', 'u', 'l', 'l']],
      ∃ e, ofJson (oneKeyFile [writeNat 8, part, writeNat 4]) = .error (.malformed e)) ∧
    ∃ e, ofJson zeroInFront = .error (.malformed e) := by
  obtain ⟨given, written, arrays⟩ := scatteredWritten
  obtain ⟨objects, others⟩ := readByName
  refine ⟨((objects written).1 _ arrays).1 rfl, fun part member => ?_, others (by decide +kernel)⟩
  have bad : Valid .value part ∧ NoSize part := by
    simp only [List.mem_cons, List.not_mem_nil, or_false] at member
    rcases member with rfl | rfl
    · exact ⟨writtenValid 65536, noSizeLarge (by decide)⟩
    · exact ⟨.word (by simp [words]), noSizeOther List.mem_cons_self rfl⟩
  have valid : ∀ text ∈ [writeNat 8, part, writeNat 4], Valid .value text := by
    simp only [List.forall_mem_cons]
    exact ⟨writtenValid 8, bad.1, writtenValid 4, by simp⟩
  obtain ⟨given', written', misshapen⟩ := oneKeyMisshapen valid (by simp : part ∈ _) bad.2
  exact (objects written').2.2 misshapen

end TileCost.Heatmap
