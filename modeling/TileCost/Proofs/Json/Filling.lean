import TileCost.Proofs.Json.Members

/-! How a record is filled. Each known name comes at most once, and where the fields are
independent of each other the order of their members does not matter. -/
namespace TileCost.Json

variable {α β γ β' γ' : Type}

/-! Fields. -/

namespace Field

theorem ofSpelledExact {name} {read : Reader β} (determined : Determined Ends read)
    {put : α → β → α} {x y : α} {text : List Char} :
    Spells ((Field.of name read put).update x) text y ↔ ∃ b, Spells read text b ∧ put x b = y :=
  Spells.mappedExact determined

def Commutes (f g : Field α) : Prop :=
  ∀ {x y z text text'}, Spells (f.update x) text y → Spells (g.update y) text' z →
    ∃ y', Spells (g.update x) text' y' ∧ Spells (f.update y') text z

theorem ofCommutes {name name'} {read : Reader β} {read' : Reader γ}
    (determined : Determined Ends read) (determined' : Determined Ends read')
    {put : α → β → α} {put' : α → γ → α}
    (apart : ∀ x b c, put' (put x b) c = put (put' x c) b) :
    (Field.of name read put).Commutes (Field.of name' read' put') := by
  intro x y z text text' first second
  obtain ⟨b, one, rfl⟩ := (ofSpelledExact determined).mp first
  obtain ⟨c, two, rfl⟩ := (ofSpelledExact determined').mp second
  exact ⟨put' x c, (ofSpelledExact determined').mpr ⟨c, two, rfl⟩,
    (ofSpelledExact determined).mpr ⟨b, one, (apart x b c).symm⟩⟩

end Field

def named (names : List String) (given : List (String × List Char)) : List (String × List Char) :=
  given.filter fun member => member.1 ∈ names

theorem namedWithin {name : String} {names : List String} (among : name ∈ names)
    (given : List (String × List Char)) :
    named [name] (named names given) = named [name] given := by
  unfold named
  rw [List.filter_filter]
  congr 1
  funext member
  rw [Bool.eq_iff_iff]
  simp only [List.mem_singleton, Bool.and_eq_true, decide_eq_true_eq, and_iff_left_iff_imp]
  rintro rfl
  exact among

theorem namedApart {name : String} {names : List String} (other : name ∉ names)
    (given : List (String × List Char)) :
    (named (name :: names) given).Perm (named [name] given ++ named names given) := by
  have parted := List.filter_append_perm (fun member => member.1 ∈ [name])
    (named (name :: names) given)
  have here : (named (name :: names) given).filter (fun member => member.1 ∈ [name]) =
      named [name] given := namedWithin List.mem_cons_self given
  have others : (named (name :: names) given).filter (fun member => !decide (member.1 ∈ [name])) =
      named names given := by
    unfold named
    rw [List.filter_filter]
    congr 1
    funext member
    rw [Bool.eq_iff_iff]
    grind
  rw [here, others] at parted
  exact parted.symm

theorem namedCount (name : String) (given : List (String × List Char)) :
    (given.map Prod.fst).count name = (named [name] given).length := by
  rw [List.count_eq_countP, List.countP_map, List.countP_eq_length_filter, named]
  congr 2
  funext member
  rw [Bool.eq_iff_iff]
  simp

@[simp] theorem namedNames {name : String} {names : List String} {given : List (String × List Char)} :
    name ∈ (named names given).map Prod.fst ↔ name ∈ names ∧ name ∈ given.map Prod.fst := by
  simp only [named, List.mem_map, List.mem_filter, decide_eq_true_eq]
  constructor
  · rintro ⟨member, ⟨there, among⟩, rfl⟩
    exact ⟨among, member, there, rfl⟩
  · rintro ⟨among, member, there, rfl⟩
    exact ⟨member, ⟨there, among⟩, rfl⟩

theorem Record.knownNamed (r : Record α) (given : List (String × List Char)) :
    r.known given = named (r.fields.map Field.name) given := by
  unfold Record.known named
  congr 1
  funext member
  rw [Bool.eq_iff_iff]
  simp [Record.field?, List.find?_isSome]

inductive Given (given : List (String × List Char)) (name : String)
    (holds : List Char → β → Prop) : Option β → Prop where
  | absent (nowhere : named [name] given = []) : Given given name holds none
  | once {text b} (one : named [name] given = [(name, text)]) (here : holds text b) :
      Given given name holds (some b)

theorem namedOnly {given : List (String × List Char)} {name text}
    (one : named [name] given = [(name, text)]) : (name, text) ∈ given :=
  List.mem_of_mem_filter (one ▸ List.mem_singleton_self _ : (name, text) ∈ named [name] given)

theorem Given.single {given name} {holds : List Char → β → Prop} {b : β}
    (found : Given given name holds (some b)) : (named [name] given).length = 1 := by
  cases found with
  | once one _ => rw [one, List.length_singleton]

theorem Given.here {given name} {holds : List Char → β → Prop} {b : β}
    (found : Given given name holds (some b)) {text} (there : (name, text) ∈ given) :
    holds text b := by
  cases found with
  | once one here =>
      have among : (name, text) ∈ named [name] given := by simpa [named] using there
      rw [one, List.mem_singleton] at among
      cases among
      exact here

theorem Given.name {given name} {holds : List Char → β → Prop} {b : β}
    (found : Given given name holds (some b)) : name ∈ given.map Prod.fst := by
  cases found with
  | once one _ => exact List.mem_map_of_mem (namedOnly one)

theorem Given.exact {given name} {holds holds' : List Char → β → Prop}
    (same : ∀ {text b}, (name, text) ∈ given → (holds text b ↔ holds' text b)) {o : Option β} :
    Given given name holds o ↔ Given given name holds' o := by
  constructor
  · intro found
    cases found with
    | absent nowhere => exact .absent nowhere
    | once one here => exact .once one ((same (namedOnly one)).mp here)
  · intro found
    cases found with
    | absent nowhere => exact .absent nowhere
    | once one here => exact .once one ((same (namedOnly one)).mpr here)

namespace Record

def Independent (r : Record α) : Prop :=
  ∀ f ∈ r.fields, ∀ g ∈ r.fields, f.name ≠ g.name → f.Commutes g

theorem independentPair {r : Record α} {f g : Field α} (fields : r.fields = [f, g])
    (forth : f.Commutes g) (back : g.Commutes f) : r.Independent := by
  intro one member other member' apart
  rw [fields] at member member'
  simp only [List.mem_cons, List.not_mem_nil, or_false] at member member'
  rcases member with rfl | rfl <;> rcases member' with rfl | rfl
  · exact absurd rfl apart
  · exact forth
  · exact back
  · exact absurd rfl apart

theorem fieldName {r : Record α} {name field} (known : r.field? name = some field) :
    field.name = name := by simpa using List.find?_some known

theorem noneMissing {r : Record α} (complete : r.complete = true) {seen : List String} :
    r.missing seen = none ↔ ∀ name ∈ r.fields.map Field.name, name ∈ seen := by
  simp [missing, complete]

theorem missingReordered (r : Record α) {seen seen' : List String} (same : seen.Perm seen') :
    r.missing seen = r.missing seen' := by
  unfold missing
  simp only [same.mem_iff]

namespace Fills

theorem appended {r : Record α} {seen x front seen' y back seen'' z}
    (one : r.Fills seen x front seen' y) (two : r.Fills seen' y back seen'' z) :
    r.Fills seen x (front ++ back) seen'' z := by
  induction one with
  | done => exact two
  | member known fresh spelled _ ih => exact .member known fresh spelled (ih two)

theorem names {r : Record α} {seen x given seen' y} (fills : r.Fills seen x given seen' y) :
    (∀ name ∈ given.map Prod.fst, name ∉ seen) ∧ (given.map Prod.fst).Nodup := by
  induction fills with
  | done => simp
  | @member seen x name value field y others seen' z known fresh spelled rest ih =>
      obtain ⟨later, distinct⟩ := ih
      rw [List.map_cons, List.forall_mem_cons, List.nodup_cons]
      refine ⟨⟨fresh, fun other member => ?_⟩, fun member => ?_, distinct⟩
      · exact fun before => later other member (List.mem_cons_of_mem _ before)
      · exact later name member List.mem_cons_self

theorem seenExact {r : Record α} {seen x given seen' y} (fills : r.Fills seen x given seen' y)
    {name : String} : name ∈ seen' ↔ name ∈ given.map Prod.fst ∨ name ∈ seen := by
  induction fills with
  | done => simp
  | member known fresh spelled rest ih =>
      rw [ih, List.map_cons, List.mem_cons, List.mem_cons, or_left_comm, or_assoc]

theorem spelledMember {r : Record α} {seen x given seen' y} (fills : r.Fills seen x given seen' y)
    {name value} (member : (name, value) ∈ given) :
    ∃ field z z', r.field? name = some field ∧ Spells (field.update z) value z' := by
  induction fills with
  | done => contradiction
  | member known fresh spelled rest ih =>
      rcases List.mem_cons.mp member with here | later
      · cases here
        exact ⟨_, _, _, known, spelled⟩
      · exact ih later

theorem replaced {r : Record α} {name value value'}
    (instead : ∀ {field x y}, r.field? name = some field → Spells (field.update x) value y →
      Spells (field.update x) value' y) {front back seen x seen' y}
    (fills : r.Fills seen x (front ++ (name, value) :: back) seen' y) :
    r.Fills seen x (front ++ (name, value') :: back) seen' y := by
  induction front generalizing seen x with
  | nil =>
      cases fills with
      | member known fresh spelled rest => exact .member known fresh (instead known spelled) rest
  | cons first front ih =>
      cases fills with
      | member known fresh spelled rest => exact .member known fresh spelled (ih rest)

theorem reseen {r : Record α} {seen x given seen' y} (fills : r.Fills seen x given seen' y)
    {other : List String} (same : seen.Perm other) :
    ∃ other', seen'.Perm other' ∧ r.Fills other x given other' y := by
  induction fills generalizing other with
  | done => exact ⟨other, same, .done⟩
  | member known fresh spelled rest ih =>
      obtain ⟨other', same', fills⟩ := ih (same.cons _)
      exact ⟨other', same', .member known (mt same.mem_iff.mpr fresh) spelled fills⟩

theorem reordered {r : Record α} (independent : r.Independent) {given given'}
    (same : given.Perm given') {seen x seen' y} (fills : r.Fills seen x given seen' y) :
    ∃ other, seen'.Perm other ∧ r.Fills seen x given' other y := by
  induction same generalizing seen x seen' y with
  | nil => exact ⟨_, .refl _, fills⟩
  | cons member same ih =>
      cases fills with
      | member known fresh spelled rest =>
          obtain ⟨other, same', fills⟩ := ih rest
          exact ⟨other, same', .member known fresh spelled fills⟩
  | swap second first rest =>
      cases fills with
      | member known fresh spelled later =>
          cases later with
          | member known' fresh' spelled' rest =>
              obtain ⟨apart, fresh'⟩ := not_or.mp (mt List.mem_cons.mpr fresh')
              have distinct := fieldName known ▸ fieldName known' ▸ Ne.symm apart
              obtain ⟨y', one, two⟩ := independent _ (List.mem_of_find?_eq_some known) _
                (List.mem_of_find?_eq_some known') distinct spelled spelled'
              obtain ⟨other, same, fills⟩ := rest.reseen (.swap _ _ _)
              refine ⟨other, same, .member known' fresh' one (.member known ?_ two fills)⟩
              exact fun here => (List.mem_cons.mp here).elim (Ne.symm apart) fresh
  | trans _ _ ih ih' =>
      obtain ⟨other, one, fills⟩ := ih fills
      obtain ⟨other', two, fills⟩ := ih' fills
      exact ⟨other', one.trans two, fills⟩

end Fills

namespace Filled

theorem reordered {r : Record α} (independent : r.Independent) {given given' x}
    (filled : r.Filled given x)
    (same : (named (r.fields.map Field.name) given).Perm (named (r.fields.map Field.name) given')) :
    r.Filled given' x := by
  obtain ⟨seen, fills, complete⟩ := filled
  rw [← knownNamed, ← knownNamed] at same
  obtain ⟨other, seen', fills⟩ := fills.reordered independent same
  exact ⟨other, fills, by rw [← r.missingReordered seen', complete]⟩

theorem once {r : Record α} {given x} (filled : r.Filled given x) {name}
    (known : name ∈ r.fields.map Field.name) : (named [name] given).length ≤ 1 := by
  obtain ⟨seen, fills, _⟩ := filled
  have single := List.nodup_iff_count_le_one.mp fills.names.2 name
  rwa [namedCount, knownNamed, namedWithin known] at single

theorem exactlyOnce {r : Record α} (complete : r.complete = true) {given x}
    (filled : r.Filled given x) {name} (known : name ∈ r.fields.map Field.name) :
    ∃ text, named [name] given = [(name, text)] := by
  have single := filled.once known
  obtain ⟨seen, fills, whole⟩ := filled
  have seen := fills.seenExact.mp ((noneMissing complete).mp whole name known)
  rw [knownNamed, namedNames] at seen
  have there := namedNames.mpr ⟨List.mem_singleton_self name, (seen.resolve_right (by simp)).2⟩
  obtain ⟨⟨name', text⟩, member, rfl⟩ := List.mem_map.mp there
  obtain ⟨only, one⟩ := List.length_eq_one_iff.mp
    (Nat.le_antisymm single (List.length_pos_of_mem member))
  rw [one, List.mem_singleton] at member
  exact ⟨text, member ▸ one⟩

theorem replaced {r : Record α} {name field value value'} (known : r.field? name = some field)
    (instead : ∀ {x y}, Spells (field.update x) value y → Spells (field.update x) value' y)
    {front back x} (filled : r.Filled (front ++ (name, value) :: back) x) :
    r.Filled (front ++ (name, value') :: back) x := by
  have parted (text : List Char) : r.known (front ++ (name, text) :: back) =
      r.known front ++ (name, text) :: r.known back := by
    rw [← knownField known]
    exact List.filter_append ..
  obtain ⟨seen, fills, complete⟩ := filled
  rw [parted] at fills
  refine ⟨seen, ?_, complete⟩
  rw [parted]
  refine fills.replaced fun {field' x y} known' spelled => ?_
  cases known.symm.trans known'
  exact instead spelled

theorem spelledMember {r : Record α} {given x} (filled : r.Filled given x) {name field}
    (known : r.field? name = some field) {value} (member : (name, value) ∈ given) :
    ∃ z z', Spells (field.update z) value z' := by
  obtain ⟨seen, fills, _⟩ := filled
  have there : (name, value) ∈ r.known given :=
    List.mem_filter.mpr ⟨member, by rw [known]; rfl⟩
  obtain ⟨field', z, z', known', spelled⟩ := fills.spelledMember there
  cases known.symm.trans known'
  exact ⟨z, z', spelled⟩

end Filled

end Record

def supplied (put : α → γ → α) (x : α) (part : Option γ) : α := part.elim x (put x)

theorem Given.fills {r : Record α} {name} {read : Reader γ} {put : α → γ → α} {value : β → γ}
    {given} {holds : List Char → β → Prop} {o : Option β} (found : Given given name holds o)
    (known : r.field? name = some (.of name read put))
    (spelled : ∀ {text b}, holds text b → Spells read text (value b)) {seen : List String}
    (fresh : name ∉ seen) (x : α) :
    ∃ seen', r.Fills seen x (named [name] given) seen' (supplied put x (o.map value)) := by
  cases found with
  | absent nowhere =>
      rw [nowhere]
      exact ⟨seen, .done⟩
  | once one here =>
      rw [one]
      exact ⟨_, .member known fresh (Field.ofSpelled (spelled here) name put x) .done⟩

namespace Record

theorem missingLenient {r : Record α} (lenient : r.complete = false) (seen : List String) :
    r.missing seen = none := by simp [missing, lenient]

theorem filledOne {r : Record α} {name} {read : Reader γ} {put : α → γ → α} {value : β → γ}
    (fields : r.fields = [.of name read put]) (lenient : r.complete = false) {given}
    {holds : List Char → β → Prop} {o : Option β} (found : Given given name holds o)
    (spelled : ∀ {text b}, holds text b → Spells read text (value b)) :
    r.Filled given (supplied put r.default (o.map value)) := by
  have known : r.field? name = some (.of name read put) := by simp [field?, fields, Field.of]
  obtain ⟨seen, fills⟩ := found.fills known spelled (List.not_mem_nil) r.default
  refine ⟨seen, ?_, missingLenient lenient seen⟩
  rw [knownNamed, fields]
  exact fills

section Two

variable {r : Record α} (independent : r.Independent) {name name' : String} {read : Reader γ}
  {read' : Reader γ'} {put : α → γ → α} {put' : α → γ' → α}
  (fields : r.fields = [.of name read put, .of name' read' put']) (apart : name ≠ name')
  {given : List (String × List Char)}
include fields apart

theorem fieldsTwo : r.field? name = some (.of name read put) ∧
    r.field? name' = some (.of name' read' put') := by
  simp [field?, fields, Field.of, apart]

include independent

theorem fillsTwo {value : β → γ} {value' : β' → γ'} {holds : List Char → β → Prop}
    {holds' : List Char → β' → Prop} {o : Option β} {o' : Option β'}
    (found : Given given name holds o) (found' : Given given name' holds' o')
    (spelled : ∀ {text b}, holds text b → Spells read text (value b))
    (spelled' : ∀ {text b}, holds' text b → Spells read' text (value' b)) :
    ∃ seen, r.Fills [] r.default (r.known given) seen
      (supplied put' (supplied put r.default (o.map value)) (o'.map value')) := by
  obtain ⟨known, known'⟩ := fieldsTwo fields apart
  obtain ⟨seen, one⟩ := found.fills known spelled (List.not_mem_nil) r.default
  have fresh : name' ∉ seen := by
    rw [one.seenExact, namedNames]
    simp [apart.symm]
  obtain ⟨seen', two⟩ := found'.fills known' spelled' fresh _
  have order := namedApart (List.mem_singleton.not.mpr apart) given
  obtain ⟨last, _, fills⟩ := (one.appended two).reordered independent order.symm
  refine ⟨last, ?_⟩
  rw [knownNamed, fields]
  exact fills

theorem filledTwo (lenient : r.complete = false) {value : β → γ} {value' : β' → γ'}
    {holds : List Char → β → Prop} {holds' : List Char → β' → Prop} {o : Option β} {o' : Option β'}
    (found : Given given name holds o) (found' : Given given name' holds' o')
    (spelled : ∀ {text b}, holds text b → Spells read text (value b))
    (spelled' : ∀ {text b}, holds' text b → Spells read' text (value' b)) :
    r.Filled given
      (supplied put' (supplied put r.default (o.map value)) (o'.map value')) := by
  obtain ⟨seen, fills⟩ := fillsTwo independent fields apart found found' spelled spelled'
  exact ⟨seen, fills, missingLenient lenient seen⟩

theorem filledBoth (complete : r.complete = true) (determined : Determined Ends read)
    (determined' : Determined Ends read') {x : α} :
    r.Filled given x ↔ ∃ b c, Given given name (Spells read) (some b) ∧
      Given given name' (Spells read') (some c) ∧ put' (put r.default b) c = x := by
  have names : r.fields.map Field.name = [name, name'] := by rw [fields]; rfl
  obtain ⟨first, second⟩ := fieldsTwo fields apart
  constructor
  · intro filled
    obtain ⟨text, one⟩ := filled.exactlyOnce complete (by simp [names] : name ∈ _)
    obtain ⟨text', two⟩ := filled.exactlyOnce complete (by simp [names] : name' ∈ _)
    obtain ⟨seen, fills, _⟩ := filled
    have order := namedApart (List.mem_singleton.not.mpr apart) given
    rw [one, two] at order
    rw [knownNamed, names] at fills
    obtain ⟨_, _, fills⟩ := fills.reordered independent order
    cases fills with
    | member known _ spelled fills =>
        cases fills with
        | member known' _ spelled' last =>
            cases last
            cases first.symm.trans known
            cases second.symm.trans known'
            obtain ⟨b, here, rfl⟩ := (Field.ofSpelledExact determined).mp spelled
            obtain ⟨c, here', rfl⟩ := (Field.ofSpelledExact determined').mp spelled'
            exact ⟨b, c, .once one here, .once two here', rfl⟩
  · intro found
    obtain ⟨b, c, found, found', rfl⟩ := found
    obtain ⟨seen, fills⟩ := fillsTwo independent fields apart found found' id id
    refine ⟨seen, fills, (noneMissing complete).mpr fun field known => ?_⟩
    rw [fills.seenExact, knownNamed, namedNames]
    refine .inl ⟨known, ?_⟩
    rw [names, List.mem_cons, List.mem_singleton] at known
    rcases known with rfl | rfl
    · exact found.name
    · exact found'.name

end Two

variable {r : Record α} {inner : Record β} {name : String} {put : α → β → α}

theorem Filled.respelled (confined : inner.Confined) (independent : inner.Independent)
    (determined : Determined Ends inner.read)
    (known : r.field? name = some (.of name inner.read put)) {given given' text text'}
    (one : AnyObject true given text) (other : AnyObject true given' text')
    (same : (named (inner.fields.map Field.name) given).Perm
      (named (inner.fields.map Field.name) given')) {front back x}
    (filled : r.Filled (front ++ (name, '\x7b' :: text) :: back) x) :
    r.Filled (front ++ (name, '\x7b' :: text') :: back) x := by
  refine filled.replaced known fun {x y} spelled => ?_
  obtain ⟨b, one', rfl⟩ := (Field.ofSpelledExact determined).mp spelled
  refine (Field.ofSpelledExact determined).mpr ⟨b, ?_, rfl⟩
  rw [objectExact confined one] at one'
  rw [objectExact confined other]
  exact one'.reordered independent same

theorem Filled.innerSpelled (determined : Determined Ends inner.read)
    (known : r.field? name = some (.of name inner.read put)) {given value x}
    (filled : r.Filled given x) (member : (name, value) ∈ given) : ∃ b, Spells inner.read value b := by
  obtain ⟨z, z', spelled⟩ := filled.spelledMember known member
  obtain ⟨b, one, _⟩ := (Field.ofSpelledExact determined).mp spelled
  exact ⟨b, one⟩

theorem Filled.innerOnce (confined : inner.Confined) (determined : Determined Ends inner.read)
    (known : r.field? name = some (.of name inner.read put)) {given given' text x}
    (filled : r.Filled given x) (member : (name, '\x7b' :: text) ∈ given)
    (object : AnyObject true given' text) {field}
    (among : field ∈ inner.fields.map Field.name) : (named [field] given').length ≤ 1 := by
  obtain ⟨b, one⟩ := filled.innerSpelled determined known member
  rw [objectExact confined object] at one
  exact one.once among

end Record
end TileCost.Json
