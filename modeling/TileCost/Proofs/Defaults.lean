import TileCost.Proofs.Json.Names
import TileCost.Proofs.Sections

/-! Settings that are partly given. Each of the three leaves is what the file says or its
default, whatever the other two are; neither the order of the members nor members of other
names make a difference, and a name that is known comes at most once. -/
namespace TileCost.Settings
open Json

/-! What a file says of the leaves. -/

def PathText (text : List Char) (path : String) : Prop :=
  ∃ letters, text = '"' :: letters ∧ Quoted letters path.toList []

def CostText (text : List Char) (cost : UInt32) : Prop := text = writeNat cost.toNat

def ThroughputText (text : List Char) (throughput : Float) : Prop :=
  ∃ (n : Numeral) (number : Number),
    n.Spelled text ∧ n.value [] = .ok number ∧ number.toFloat = throughput

def HeatmapText (text : List Char) (path : Option String) : Prop :=
  ∃ inside given, text = '\x7b' :: inside ∧ AnyObject true given inside ∧
    Given given "path" PathText path

def EstimatorText (text : List Char) (constants : Option UInt32 × Option Float) : Prop :=
  ∃ inside given, text = '\x7b' :: inside ∧ AnyObject true given inside ∧
    Given given "startup_cost" CostText constants.1 ∧
    Given given "special_throughput" ThroughputText constants.2

structure Leaves where
  path : Option String
  startupCost : Option UInt32
  specialThroughput : Option Float

inductive Leaves.Of (given : List (String × List Char)) : Leaves → Prop where
  | sections {path constants} (heatmap : Given given "heatmap" HeatmapText path)
      (estimator : Given given "estimator" EstimatorText constants) :
      Of given ⟨path.join, constants.bind Prod.fst, constants.bind Prod.snd⟩

def Leaves.settings (leaves : Leaves) : Settings where
  heatmapPath := leaves.path.getD default.heatmapPath
  constants := ⟨leaves.startupCost.getD default.constants.startupCost,
    leaves.specialThroughput.getD default.constants.specialThroughput⟩

theorem pathSpells {text path} (here : PathText text path) (expected : String) :
    Spells (quotedString expected) text path.toList := by
  obtain ⟨letters, rfl, quoted⟩ := here
  exact fun after _ => ⟨[], rfl, Record.keyNamed quoted after⟩

theorem costSpells {text cost} (here : CostText text cost) : Spells natural32 text cost := by
  subst here
  exact .ofRead natural32Determined (natural32Written cost)

theorem throughputSpells {text throughput} (here : ThroughputText text throughput) :
    Spells float64 text throughput := by
  obtain ⟨n, number, spelled, known, rfl⟩ := here
  exact fun after ends => ⟨[], rfl, numberSpelled spelled known (by rfl) ends⟩

theorem heatmapSpells {text path} (here : HeatmapText text path) :
    Spells heatmapSection.read text (path.getD default.heatmapPath) := by
  obtain ⟨inside, given, rfl, object, found⟩ := here
  have filled : heatmapSection.Filled given _ := Record.filledOne rfl rfl found (pathSpells · _)
  rw [Record.objectExact heatmapSectionConfined object]
  cases path with
  | none => exact filled
  | some path => simpa [supplied] using filled

theorem estimatorSpells {text constants} (here : EstimatorText text constants) :
    Spells estimatorSection.read text
      ⟨constants.1.getD default.constants.startupCost,
        constants.2.getD default.constants.specialThroughput⟩ := by
  obtain ⟨inside, given, rfl, object, cost, throughput⟩ := here
  have filled := Record.filledTwo estimatorSectionIndependent rfl (by decide) rfl cost throughput
    costSpells throughputSpells
  rw [Record.objectExact estimatorSectionConfined object]
  obtain ⟨cost, throughput⟩ := constants
  cases cost <;> cases throughput <;> exact filled

theorem leavesFilled {given leaves} (leavesOf : Leaves.Of given leaves) :
    record.Filled given leaves.settings := by
  obtain @⟨path, constants, heatmap, estimator⟩ := leavesOf
  have filled := Record.filledTwo recordIndependent rfl (by decide) rfl heatmap estimator
    heatmapSpells estimatorSpells
  cases path <;> cases constants <;> exact filled

def sections : List (String × List String) :=
  [("heatmap", ["path"]), ("estimator", ["startup_cost", "special_throughput"])]

theorem sectionsEach {name names} (known : (name, names) ∈ sections) :
    name = "heatmap" ∧ names = ["path"] ∨
      name = "estimator" ∧ names = ["startup_cost", "special_throughput"] := by
  simpa [sections] using known

/- One step from an object to another that says the same: its own members, or those of one
section, are brought into another order, and members of other names come or go. -/
inductive Rearranged : List (String × List Char) → List (String × List Char) → Prop where
  | members {given given'} (same : (named (sections.map Prod.fst) given).Perm
      (named (sections.map Prod.fst) given')) : Rearranged given given'
  | inside {front back name names given given' text text'} (known : (name, names) ∈ sections)
      (one : AnyObject true given text) (other : AnyObject true given' text')
      (same : (named names given).Perm (named names given')) :
      Rearranged (front ++ (name, '\x7b' :: text) :: back)
        (front ++ (name, '\x7b' :: text') :: back)

inductive Repeated (given : List (String × List Char)) : Prop where
  | members {name} (known : name ∈ sections.map Prod.fst)
      (twice : 2 ≤ (named [name] given).length)
  | inside {name names field given' text} (known : (name, names) ∈ sections)
      (here : (name, '\x7b' :: text) ∈ given) (object : AnyObject true given' text)
      (among : field ∈ names) (twice : 2 ≤ (named [field] given').length)

theorem Rearranged.reversed {given given'} (step : Rearranged given given') :
    Rearranged given' given := by
  cases step with
  | members same => exact .members same.symm
  | inside known one other same => exact .inside known other one same.symm

theorem rearrangedFilled {given given' s} (step : Rearranged given given')
    (filled : record.Filled given s) : record.Filled given' s := by
  cases step with
  | members same => exact filled.reordered recordIndependent same
  | inside known one other same =>
      rcases sectionsEach known with ⟨rfl, rfl⟩ | ⟨rfl, rfl⟩
      · exact filled.respelled heatmapSectionConfined heatmapSectionIndependent
          heatmapSectionDetermined rfl one other same
      · exact filled.respelled estimatorSectionConfined estimatorSectionIndependent
          estimatorSectionDetermined rfl one other same

theorem rearrangementFilled {given given' s}
    (steps : Relation.ReflTransGen Rearranged given given') :
    record.Filled given s ↔ record.Filled given' s := by
  induction steps with
  | refl => exact .rfl
  | tail _ step ih => exact ih.trans ⟨rearrangedFilled step, rearrangedFilled step.reversed⟩

theorem repeatedUnfilled {given s} (repeats : Repeated given) : ¬ record.Filled given s := by
  intro filled
  cases repeats with
  | members known twice =>
      have single := filled.once known
      omega
  | inside known here object among twice =>
      rcases sectionsEach known with ⟨rfl, rfl⟩ | ⟨rfl, rfl⟩
      · have single := filled.innerOnce heatmapSectionConfined heatmapSectionDetermined rfl here
          object among
        omega
      · have single := filled.innerOnce estimatorSectionConfined estimatorSectionDetermined rfl here
          object among
        omega

theorem unreadRefused {text} (unread : ∀ s, ofJson text ≠ .ok s) : ∃ e, ofJson text = .error e := by
  cases parsed : ofJson text with
  | error e => exact ⟨e, rfl⟩
  | ok s => exact absurd parsed (unread s)

theorem absentDefaulted {given text} (written : ObjectText given text) :
    (∀ leaves, Leaves.Of given leaves → ofJson text = .ok leaves.settings) ∧
    (∀ given' text', Relation.ReflTransGen Rearranged given given' → ObjectText given' text' →
      ∀ s, ofJson text = .ok s ↔ ofJson text' = .ok s) ∧
    (Repeated given → ∃ e, ofJson text = .error e) := by
  have exact {given text s} (written : ObjectText given text) :
      ofJson text = .ok s ↔ record.Filled given s := objectTextExact recordConfined written
  refine ⟨fun leaves leavesOf => ?_, fun given' text' steps written' s => ?_, fun repeats => ?_⟩
  · exact (exact written).mpr (leavesFilled leavesOf)
  · rw [exact written, exact written']
    exact rearrangementFilled steps
  · exact unreadRefused fun s parsed => repeatedUnfilled repeats ((exact written).mp parsed)

/- The other objects of the grammar: those without members to go by. -/
theorem undecodedRefused {text} (undecoded : UndecodedText text) : ∃ e, ofJson text = .error e :=
  unreadRefused (undecodedUnread recordConfined undecoded)

theorem undecodedInside {given text name names inside} (written : ObjectText given text)
    (known : (name, names) ∈ sections) (here : (name, '\x7b' :: inside) ∈ given)
    (undecoded : Undecoded true inside) : ∃ e, ofJson text = .error e := by
  refine unreadRefused fun s parsed => ?_
  have filled : record.Filled given s := (objectTextExact recordConfined written).mp parsed
  rcases sectionsEach known with ⟨rfl, rfl⟩ | ⟨rfl, rfl⟩
  · obtain ⟨path, one⟩ := filled.innerSpelled heatmapSectionDetermined rfl here
    exact Record.undecodedUnread heatmapSectionConfined undecoded one
  · obtain ⟨constants, one⟩ := filled.innerSpelled estimatorSectionDetermined rfl here
    exact Record.undecodedUnread estimatorSectionConfined undecoded one

def noted : String := "\x7b \"note\": [null], \"estimator\": \x7b\"startup_cost\":7\x7d\x7d\n"

def coded : String := "\x7b\"estimator\":\x7b\"x\":\"\", \"startup\\u005fcost\":7\x7d\x7d"

def twice : String := "\x7b\"estimator\":\x7b\x7d,\"estimator\":\x7b\x7d\x7d"

theorem sevenSpelled : Numeral.Spelled ⟨false, ['7'], none, none⟩ ['7'] := writtenSpelled 7

theorem estimatorNamed : Quoted "estimator\"".toList "estimator".toList [] :=
  stringExact.mp (by decide +kernel)

theorem notedWritten : ∃ list inside, AnyObject true [("startup_cost", ['7'])] inside ∧
    ObjectText [("note", list), ("estimator", '\x7b' :: inside)] noted := by
  have cost : Quoted "startup_cost\"".toList "startup_cost".toList [] :=
    stringExact.mp (by decide +kernel)
  have note : Quoted "note\"".toList "note".toList [] := stringExact.mp (by decide +kernel)
  have nulls := Valid.opened (@Valid.item true [] _ _ (.first rfl) (.word List.mem_cons_self)
    (@Valid.closed .list false [] rfl))
  have inner := lastMember (.first rfl : Lead true []) cost (rfl : space [] = [])
    (.number sevenSpelled)
  have last := lastMember (@Lead.later [] [' '] rfl rfl) estimatorNamed (rfl : space [' '] = [])
    (objectValue inner)
  have outer := @Object.member _ true [' '] _ _ [] [' '] _ _ _ (.first rfl) note rfl rfl nulls last
  exact ⟨_, _, inner, @ObjectText.object _ noted [] _ ['\n'] rfl rfl outer (by decide +kernel)⟩

theorem codedWritten : ∃ inside,
    AnyObject true [("x", ['"', '"']), ("startup_cost", ['7'])] inside ∧
    ObjectText [("estimator", '\x7b' :: inside)] coded := by
  have other : Quoted "x\"".toList "x".toList [] := stringExact.mp (by decide +kernel)
  have cost : Quoted "startup\\u005fcost\"".toList "startup_cost".toList [] :=
    stringExact.mp (by decide +kernel)
  have last := lastMember (@Lead.later [] [' '] rfl rfl) cost (rfl : space [] = [])
    (.number sevenSpelled)
  have inner := @Object.member _ true [] _ _ [] [] _ _ _ (.first rfl) other rfl rfl
    (.string .close) last
  have outer := lastMember (.first rfl : Lead true []) estimatorNamed (rfl : space [] = [])
    (objectValue inner)
  exact ⟨_, inner, @ObjectText.object _ coded [] _ [] rfl rfl outer (by decide +kernel)⟩

theorem twiceWritten :
    ObjectText [("estimator", ['\x7b', '\x7d']), ("estimator", ['\x7b', '\x7d'])] twice := by
  have empty : AnyObject true [] ['\x7d'] := @Object.closed _ true [] rfl
  have last := lastMember (@Lead.later [] [] rfl rfl) estimatorNamed (rfl : space [] = [])
    (objectValue empty)
  have outer := @Object.member _ true [] _ _ [] [] _ _ _ (.first rfl) estimatorNamed rfl rfl
    (objectValue empty) last
  exact @ObjectText.object _ twice [] _ [] rfl rfl outer (by decide +kernel)

theorem notedCodedTwice :
    ofJson noted = .ok ⟨"heatmap.json", ⟨7, 0.001⟩⟩ ∧
    ofJson coded = .ok ⟨"heatmap.json", ⟨7, 0.001⟩⟩ ∧ ∃ e, ofJson twice = .error e := by
  obtain ⟨list, inside, one, written⟩ := notedWritten
  obtain ⟨inside', other, written'⟩ := codedWritten
  obtain ⟨given, moved, _⟩ := absentDefaulted written
  have cost : Given [("startup_cost", ['7'])] "startup_cost" CostText (some 7) :=
    @Given.once _ _ _ _ ['7'] 7 (by simp [named]) rfl
  have settings : ofJson noted = .ok (Leaves.settings ⟨none, some 7, none⟩) := by
    refine given _ (@Leaves.Of.sections _ none (some (some 7, none)) ?_ ?_)
    · exact .absent (by simp [named])
    · exact .once (by simp [named]) ⟨_, _, rfl, one, cost, .absent (by simp [named])⟩
  have estimator : ("estimator", ["startup_cost", "special_throughput"]) ∈ sections := by
    simp [sections]
  have dropped : Rearranged [("note", list), ("estimator", '\x7b' :: inside)]
      [("estimator", '\x7b' :: inside)] := .members (.of_eq (by simp [named, sections]))
  have changed : Rearranged [("estimator", '\x7b' :: inside)] [("estimator", '\x7b' :: inside')] :=
    @Rearranged.inside [] [] _ _ _ _ _ _ estimator one other (.of_eq (by simp [named]))
  have same := moved _ coded (.tail (.single dropped) changed) written'
  have known : "estimator" ∈ sections.map Prod.fst := List.mem_map_of_mem estimator
  refine ⟨settings, (same _).mp settings, (absentDefaulted twiceWritten).2.2 (.members known ?_)⟩
  simp [named]

end TileCost.Settings
