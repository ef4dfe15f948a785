import TileCost.CommandLine
import TileCost.Proofs.TileText

/-! Where the options stand among the tiles makes no difference, nor does the way each of
them is spelled: a value is never taken for a tile, and no tile for a value. What is held
back while arguments are taken is always what the next one finds settled. -/
namespace TileCost.CommandLine

def Setting.name : Setting → String
  | config => "config"
  | heatmap => "heatmap"

structure Plain (value : String) : Prop where
  given : value ≠ ""
  undashed : value.toList.head? ≠ some '-'
  unequal : value.toList.head? ≠ some '='

inductive Spelling : Setting → String → List String → Prop where
  | apart (s value) : Spelling s value ["--" ++ s.name, value]
  | joined (s value) : Spelling s value ["--" ++ (s.name ++ "=" ++ value)]
  | letterApart (value) : Spelling .config value ["-c", value]
  | letterJoined (value) : Spelling .config value ["-c" ++ value]
  | letterEquals (value) : Spelling .config value ["-c=" ++ value]

inductive Arranged : Option String → Option String → Bool → List String → List String → Prop where
  | done : Arranged none none false [] []
  | tile {config heatmap verbose texts arguments} (text : String)
      (rest : Arranged config heatmap verbose texts arguments) :
      Arranged config heatmap verbose (text :: texts) (text :: arguments)
  | config {heatmap verbose texts arguments path group} (spelling : Spelling .config path group)
      (rest : Arranged none heatmap verbose texts arguments) :
      Arranged (some path) heatmap verbose texts (group ++ arguments)
  | heatmap {config verbose texts arguments path group} (spelling : Spelling .heatmap path group)
      (rest : Arranged config none verbose texts arguments) :
      Arranged config (some path) verbose texts (group ++ arguments)
  | verbose {config heatmap texts arguments word} (spelling : word = "-v" ∨ word = "--verbose")
      (rest : Arranged config heatmap false texts arguments) :
      Arranged config heatmap true texts (word :: arguments)

theorem Setting.unequal (s : Setting) : '=' ∉ s.name.toList := by cases s <;> decide

theorem Setting.known (s : Setting) : Known.ofName s.name.toList = some (.setting s) := by
  cases s <;> rfl

theorem Setting.named (s : Setting) : s.name.toList ≠ [] := by
  cases s <;> decide

namespace Progress

theorem attachedNone {body : List Char} (plain : '=' ∉ body) : attached body = (body, none) := by
  have name : ∀ c ∈ body, decide (c ≠ '=') = true := by
    intro c member
    exact decide_eq_true fun same => plain (same ▸ member)
  have whole : body.span (· ≠ '=') = (body, []) := by
    rw [List.span_eq_takeWhile_dropWhile, List.takeWhile_eq_self_iff.mpr name,
      List.dropWhile_eq_nil_iff.mpr name]
  rw [attached, whole]

theorem attachedSome {name : List Char} (plain : '=' ∉ name) (value : List Char) :
    attached (name ++ '=' :: value) = (name, some (String.ofList value)) := by
  have front : ∀ c ∈ name, decide (c ≠ '=') = true := by
    intro c member
    exact decide_eq_true fun same => plain (same ▸ member)
  have cut : (name ++ '=' :: value).span (· ≠ '=') = (name, '=' :: value) := by
    rw [List.span_eq_takeWhile_dropWhile, List.takeWhile_append_of_pos front,
      List.dropWhile_append_of_pos front]
    simp
  rw [attached, cut]

structure Settled (q : Progress) : Prop where
  held : q.held = .nothing
  options : q.onlyTiles = false

structure Stands (p q : Progress) : Prop where
  settles : p.settle = .ok q
  settled : q.Settled
  options : p.onlyTiles = false

theorem Settled.stands {q : Progress} (settled : q.Settled) : q.Stands q where
  settles := by
    obtain ⟨config, heatmap, verbose, tiles, held, onlyTiles⟩ := q
    obtain rfl : held = .nothing := settled.held
    rfl
  settled := settled
  options := settled.options

theorem Settled.put {q : Progress} (settled : q.Settled) (value : String) (s : Setting) :
    (q.put value s).Settled := by
  cases s <;> exact ⟨settled.held, settled.options⟩

theorem takeLongWord {p : Progress} {body : String} (options : p.onlyTiles = false)
    (more : body.toList ≠ []) : p.take ("--" ++ body) = p.takeLong ("--" ++ body) body.toList := by
  have letters : ("--" ++ body).toList = '-' :: '-' :: body.toList := String.toList_append
  obtain ⟨c, rest, shape⟩ := List.exists_cons_of_ne_nil more
  rw [take, if_neg (by simp [options]), letters, shape]
  rfl

theorem takeUndashed {p : Progress} {text : String} (options : p.onlyTiles = false)
    (undashed : text.toList.head? ≠ some '-') : p.take text = p.takePlain text := by
  rw [take, if_neg (by simp [options])]
  split
  · rename_i letters
    exact absurd (by rw [letters]; rfl) undashed
  · rename_i letters
    exact absurd (by rw [letters]; rfl) undashed
  · rename_i letters
    exact absurd (by rw [letters]; rfl) undashed
  · rfl

variable {p q : Progress}

theorem awaitLong (stands : p.Stands q) (s : Setting) :
    p.take ("--" ++ s.name) = .ok (q.await s) := by
  rw [takeLongWord stands.options s.named, takeLong, attachedNone s.unequal]
  dsimp only
  rw [s.known]
  dsimp only
  rw [stands.settles]
  rfl

theorem setLong (stands : p.Stands q) (s : Setting) (value : String) :
    p.take ("--" ++ (s.name ++ "=" ++ value)) = q.set s value := by
  have letters : (s.name ++ "=" ++ value).toList = s.name.toList ++ '=' :: value.toList := by
    simp
  rw [takeLongWord stands.options (by simp [letters]), letters, takeLong,
    attachedSome s.unequal]
  dsimp only
  rw [s.known, String.ofList_toList]
  dsimp only
  rw [stands.settles]
  rfl

theorem takeConfigLetter (stands : p.Stands q) (argument : String) (rest : List Char) :
    p.takeLetters argument ('c' :: rest) =
      match rest with
      | [] => .ok (q.await .config)
      | '=' :: value => q.set .config (String.ofList value)
      | value => q.set .config (String.ofList value) := by
  rw [takeLetters]
  dsimp only [Known.ofLetter]
  rw [stands.settles]
  rfl

theorem takeConfigWord {word : String} {rest : List Char} (stands : p.Stands q)
    (letters : word.toList = '-' :: 'c' :: rest) :
    p.take word = p.takeLetters word ('c' :: rest) := by
  rw [take, if_neg (by simp [stands.options]), letters]
  rfl

theorem awaitLetter (stands : p.Stands q) : p.take "-c" = .ok (q.await .config) := by
  rw [takeConfigWord stands rfl, takeConfigLetter stands]

theorem setLetter (stands : p.Stands q) {value : String} (plain : Plain value) :
    p.take ("-c" ++ value) = q.set .config value := by
  have letters : ("-c" ++ value).toList = '-' :: 'c' :: value.toList := String.toList_append
  rw [takeConfigWord stands letters, takeConfigLetter stands]
  split
  · rename_i empty
    exact absurd (String.toList_eq_nil_iff.mp empty) plain.given
  · rename_i equals
    exact absurd (by rw [equals]; rfl) plain.unequal
  · rw [String.ofList_toList]

theorem setLetterEquals (stands : p.Stands q) (value : String) :
    p.take ("-c=" ++ value) = q.set .config value := by
  have letters : ("-c=" ++ value).toList = '-' :: 'c' :: '=' :: value.toList :=
    String.toList_append
  rw [takeConfigWord stands letters, takeConfigLetter stands]
  change q.set .config (String.ofList value.toList) = _
  rw [String.ofList_toList]

theorem setFresh {value : String} {s : Setting} (fresh : q.current s = none)
    (given : value ≠ "") : q.set s value = .ok (q.put value s) := by
  simp [set, fresh, given]

theorem awaitedTaken {value : String} {s : Setting} (settled : q.Settled) (plain : Plain value)
    (fresh : q.current s = none) :
    ∃ p', (q.await s).take value = .ok p' ∧ p'.Stands (q.put value s) := by
  refine ⟨{q with held := .value s (some value)}, ?_, ?_, settled.put value s, settled.options⟩
  · exact takeUndashed settled.options plain.undashed
  · obtain ⟨config, heatmap, verbose, tiles, held, onlyTiles⟩ := q
    obtain rfl : held = .nothing := settled.held
    exact setFresh fresh plain.given

theorem settingTaken {value : String} {s : Setting} {group : List String} (stands : p.Stands q)
    (spelling : Spelling s value group) (plain : Plain value) (fresh : q.current s = none) :
    ∃ p', group.foldlM take p = .ok p' ∧ p'.Stands (q.put value s) := by
  have atOnce {word : String} (taken : p.take word = q.set s value) :
      ∃ p', [word].foldlM take p = .ok p' ∧ p'.Stands (q.put value s) := by
    refine ⟨q.put value s, ?_, (stands.settled.put value s).stands⟩
    rw [List.foldlM_cons, taken, setFresh fresh plain.given]
    rfl
  have inTwo {word : String} (taken : p.take word = .ok (q.await s)) :
      ∃ p', [word, value].foldlM take p = .ok p' ∧ p'.Stands (q.put value s) := by
    obtain ⟨p', valueTaken, after⟩ := awaitedTaken stands.settled plain fresh
    refine ⟨p', ?_, after⟩
    rw [List.foldlM_cons, taken]
    change [value].foldlM take (q.await s) = _
    rw [List.foldlM_cons, valueTaken]
    rfl
  cases spelling with
  | apart => exact inTwo (awaitLong stands s)
  | joined => exact atOnce (setLong stands s value)
  | letterApart => exact inTwo (awaitLetter stands)
  | letterJoined => exact atOnce (setLetter stands plain)
  | letterEquals => exact atOnce (setLetterEquals stands value)

theorem turnVerbose (fresh : q.verbose = false) :
    q.turn .verbose = .ok {q with verbose := true} := by
  simp [turn, fresh]

theorem verboseTaken {word : String} (stands : p.Stands q)
    (spelling : word = "-v" ∨ word = "--verbose") (fresh : q.verbose = false) :
    p.take word = .ok {q with verbose := true} := by
  rcases spelling with rfl | rfl
  · rw [take, if_neg (by simp [stands.options])]
    change p.takeLetters "-v" ['v'] = _
    rw [takeLetters]
    dsimp only [Known.ofLetter]
    rw [stands.settles]
    change q.turn .verbose >>= (fun p => p.takeLetters "-v" []) = _
    rw [turnVerbose fresh]
    rfl
  · rw [take, if_neg (by simp [stands.options])]
    change p.takeLong "--verbose" "verbose".toList = _
    rw [takeLong, attachedNone (by decide)]
    change p.settle >>= (fun p => p.turn .verbose) = _
    rw [stands.settles]
    exact turnVerbose fresh

theorem addTileRead {text : String} {tile : Tile} (read : Tile.ofText text = .ok tile)
    (q : Progress) : q.addTile text = .ok {q with tiles := tile :: q.tiles} := by
  rw [addTile, read]

theorem tileHeldFirst {text : String} {tile : Tile} (settled : q.Settled)
    (read : Tile.ofText text = .ok tile) :
    Stands {q with held := .tiles [text]} {q with tiles := tile :: q.tiles} where
  settles := by
    obtain ⟨config, heatmap, verbose, tiles, held, onlyTiles⟩ := q
    obtain rfl : held = .nothing := settled.held
    change [text].foldlM addTile _ = _
    rw [List.foldlM_cons, addTileRead read]
    rfl
  settled := ⟨settled.held, settled.options⟩
  options := settled.options

theorem tileHeldNext {text : String} {tile : Tile} {texts : List String} (stands : p.Stands q)
    (held : p.held = .tiles texts) (read : Tile.ofText text = .ok tile) :
    Stands {p with held := .tiles (text :: texts)} {q with tiles := tile :: q.tiles} where
  settles := by
    have settles : texts.reverse.foldlM addTile {p with held := .nothing} = .ok q := by
      have settles := stands.settles
      rw [settle, held] at settles
      exact settles
    change (text :: texts).reverse.foldlM addTile {p with held := .nothing} = _
    rw [List.reverse_cons, List.foldlM_append, settles]
    change [text].foldlM addTile q = _
    rw [List.foldlM_cons, addTileRead read]
    rfl
  settled := ⟨stands.settled.held, stands.settled.options⟩
  options := stands.options

theorem takeTileFirst {text : String} (stands : p.Stands q)
    (other : ∀ texts, p.held ≠ .tiles texts) :
    p.takeTile text = .ok {q with held := .tiles [text]} := by
  rw [takeTile]
  split
  · rename_i texts held
    exact absurd held (other texts)
  · rw [stands.settles]
    rfl

theorem tileTaken {text : String} {tile : Tile} (stands : p.Stands q)
    (read : Tile.ofText text = .ok tile) :
    ∃ p', p.take text = .ok p' ∧ p'.Stands {q with tiles := tile :: q.tiles} := by
  rw [takeUndashed stands.options (Extents.readExact.mp read).undashed, takePlain]
  cases held : p.held with
  | nothing =>
      refine ⟨_, ?_, tileHeldFirst stands.settled read⟩
      exact takeTileFirst stands (by simp [held])
  | value setting given =>
      cases given with
      | none =>
          have settles := stands.settles
          rw [settle, held] at settles
          contradiction
      | some value =>
          refine ⟨_, ?_, tileHeldFirst stands.settled read⟩
          exact takeTileFirst stands (by simp [held])
  | tiles texts =>
      refine ⟨_, ?_, tileHeldNext stands held read⟩
      dsimp only
      rw [takeTile, held]

theorem foldlMAfter {group rest : List String} {p' : Progress}
    (taken : group.foldlM take p = .ok p') :
    (group ++ rest).foldlM take p = rest.foldlM take p' := by
  rw [List.foldlM_append, taken]
  rfl

/- What is arranged adds to what has been taken already, as long as no option of it has
been given before. -/
theorem arrangedTaken {config heatmap : Option String} {verbose : Bool}
    {texts arguments : List String} (arranged : Arranged config heatmap verbose texts arguments)
    {tiles : List Tile} (read : List.Forall₂ (Tile.ofText · = .ok ·) texts tiles)
    (plainConfig : ∀ path ∈ config, Plain path) (plainHeatmap : ∀ path ∈ heatmap, Plain path)
    (stands : p.Stands q) (freshConfig : config ≠ none → q.config = none)
    (freshHeatmap : heatmap ≠ none → q.heatmap = none)
    (freshVerbose : verbose = true → q.verbose = false) :
    ∃ p', arguments.foldlM take p = .ok p' ∧ p'.Stands
      {q with config := config.or q.config, heatmap := heatmap.or q.heatmap,
              verbose := verbose || q.verbose, tiles := tiles.reverse ++ q.tiles} := by
  induction arranged generalizing tiles p q with
  | done =>
      cases read
      exact ⟨p, rfl, stands⟩
  | tile text rest ih =>
      cases read with
      | cons head tail =>
          obtain ⟨p', taken, after⟩ := tileTaken stands head
          obtain ⟨last, takenRest, end'⟩ :=
            ih tail plainConfig plainHeatmap after freshConfig freshHeatmap freshVerbose
          refine ⟨last, ?_, ?_⟩
          · rw [List.foldlM_cons, taken]
            exact takenRest
          · simpa using end'
  | config spelling rest ih =>
      obtain ⟨p', taken, after⟩ :=
        settingTaken stands spelling (plainConfig _ rfl) (freshConfig (by simp))
      obtain ⟨last, takenRest, end'⟩ :=
        ih read (by simp) plainHeatmap after (by simp) freshHeatmap freshVerbose
      exact ⟨last, (foldlMAfter taken).trans takenRest, end'⟩
  | heatmap spelling rest ih =>
      obtain ⟨p', taken, after⟩ :=
        settingTaken stands spelling (plainHeatmap _ rfl) (freshHeatmap (by simp))
      obtain ⟨last, takenRest, end'⟩ :=
        ih read plainConfig (by simp) after freshConfig (by simp) freshVerbose
      exact ⟨last, (foldlMAfter taken).trans takenRest, end'⟩
  | verbose spelling rest ih =>
      have taken := verboseTaken stands spelling (freshVerbose rfl)
      have after : Settled {q with verbose := true} := ⟨stands.settled.held, stands.settled.options⟩
      obtain ⟨last, takenRest, end'⟩ :=
        ih read plainConfig plainHeatmap after.stands freshConfig freshHeatmap (by simp)
      refine ⟨last, ?_, end'⟩
      rw [List.foldlM_cons, taken]
      exact takenRest

theorem startSettled : Settled start := ⟨rfl, rfl⟩

theorem finished (stands : p.Stands q) (some : q.tiles ≠ []) :
    p.finish = .ok ⟨q.config.getD "config.json", q.heatmap, q.verbose, q.tiles.reverse⟩ := by
  rw [finish, stands.settles]
  change (if q.tiles.isEmpty then _ else _) = _
  rw [if_neg (by simp [some])]
  rfl

end Progress

open Progress in
theorem arrangementParses {config heatmap : Option String} {verbose : Bool}
    {texts arguments : List String} {tiles : List Tile}
    (plainConfig : ∀ path ∈ config, Plain path) (plainHeatmap : ∀ path ∈ heatmap, Plain path)
    (some : texts ≠ []) (read : List.Forall₂ (Tile.ofText · = .ok ·) texts tiles)
    (arranged : Arranged config heatmap verbose texts arguments) :
    parse arguments = .ok ⟨config.getD "config.json", heatmap, verbose, tiles⟩ := by
  obtain ⟨last, taken, stands⟩ := arrangedTaken arranged read plainConfig plainHeatmap
    startSettled.stands (fun _ => rfl) (fun _ => rfl) (fun _ => rfl)
  have given : tiles ≠ [] := by
    rintro rfl
    cases read
    exact some rfl
  rw [parse, taken]
  change last.finish = _
  rw [finished stands (by simpa [start] using given)]
  simp [start]

theorem lookalikesKept :
    parse ["8,1,4", "--heatmap", "1,2,3", "-cv", " +4,5,6", "--verbose"] =
      .ok ⟨"v", some "1,2,3", true, [⟨8, 1, 4⟩, ⟨4, 5, 6⟩]⟩ := by
  have plainConfig : Plain "v" := ⟨by decide, by decide, by decide⟩
  have plainHeatmap : Plain "1,2,3" := ⟨by decide, by decide, by decide⟩
  have read : List.Forall₂ (Tile.ofText · = .ok ·) ["8,1,4", " +4,5,6"] [⟨8, 1, 4⟩, ⟨4, 5, 6⟩] :=
    .cons (by decide +kernel) (.cons (by decide +kernel) .nil)
  have arranged : Arranged (some "v") (some "1,2,3") true ["8,1,4", " +4,5,6"]
      ["8,1,4", "--heatmap", "1,2,3", "-cv", " +4,5,6", "--verbose"] :=
    .tile _ (.heatmap (.apart _ _) (.config (.letterJoined "v")
      (.tile _ (.verbose (.inr rfl) .done))))
  exact arrangementParses (by simpa using plainConfig) (by simpa using plainHeatmap) (by simp) read
    arranged

end TileCost.CommandLine
