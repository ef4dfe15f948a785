import TileCost.Proofs.Arrangement

/-! Arguments without an option among them: the texts of tiles, at least one, judged in their
order when all of them have been given. Two dashes in front make every argument such a text,
whatever it begins with, two dashes again included. -/
namespace TileCost.CommandLine
open Outcome (mapErrorOk mapErrorError eachOk eachError)

inductive Verdict : List String → Except Refusal Request → Prop where
  | nothing : Verdict [] (.error .noTiles)
  | tiles {texts tiles} (some : texts ≠ [])
      (read : List.Forall₂ (Tile.ofText · = .ok ·) texts tiles) :
      Verdict texts (.ok ⟨"config.json", none, false, tiles⟩)
  | refused {front text back fault} (taken : ∀ t ∈ front, ∃ tile, Tile.ofText t = .ok tile)
      (bad : Tile.ofText text = .error fault) :
      Verdict (front ++ text :: back) (.error (.badTile text fault))

def readTile (text : String) : Except Refusal Tile :=
  (Tile.ofText text).mapError (.badTile text)

theorem readTileOk {text : String} {tile : Tile} :
    readTile text = .ok tile ↔ Tile.ofText text = .ok tile := mapErrorOk

theorem dashUnread {text : String} (dashed : text.toList.head? = some '-') {tile : Tile} :
    Tile.ofText text ≠ .ok tile :=
  fun read => (Extents.readExact.mp read).undashed dashed

namespace Progress

theorem addTileTaken (p : Progress) (text : String) :
    p.addTile text = (readTile text).map fun tile => {p with tiles := tile :: p.tiles} := by
  unfold addTile readTile
  cases Tile.ofText text <;> rfl

theorem addTiles (p : Progress) (texts : List String) :
    texts.foldlM addTile p =
      (texts.mapM readTile).map fun tiles => {p with tiles := tiles.reverse ++ p.tiles} := by
  induction texts generalizing p with
  | nil => rfl
  | cons text texts ih =>
      rw [List.foldlM_cons, List.mapM_cons, addTileTaken]
      cases readTile text with
      | error refusal => rfl
      | ok tile =>
          change texts.foldlM addTile {p with tiles := tile :: p.tiles} = _
          rw [ih]
          cases texts.mapM readTile with
          | error refusal => rfl
          | ok tiles => simp [Except.map, bind, Except.bind, pure, Except.pure]

def gathered (only : Bool) (texts : List String) : Progress :=
  {start with held := if texts = [] then .nothing else .tiles texts, onlyTiles := only}

theorem gatheredTile (only : Bool) (texts : List String) (text : String) :
    (gathered only texts).takeTile text = .ok (gathered only (text :: texts)) := by
  cases texts <;> rfl

theorem gatheredTaken {only : Bool} {text : String}
    (plain : only = true ∨ text.toList.head? ≠ some '-') (texts : List String) :
    (gathered only texts).take text = .ok (gathered only (text :: texts)) := by
  rw [← gatheredTile]
  cases only with
  | true => exact if_pos rfl
  | false =>
      have undashed : text.toList.head? ≠ some '-' := by simpa using plain
      rw [takeUndashed rfl undashed]
      cases texts <;> rfl

theorem gatheredAll (only : Bool) {arguments : List String}
    (plain : ∀ a ∈ arguments, only = true ∨ a.toList.head? ≠ some '-') (texts : List String) :
    arguments.foldlM take (gathered only texts) =
      .ok (gathered only (arguments.reverse ++ texts)) := by
  induction arguments generalizing texts with
  | nil => rfl
  | cons a arguments ih =>
      obtain ⟨here, others⟩ := List.forall_mem_cons.mp plain
      rw [List.foldlM_cons, gatheredTaken here]
      change arguments.foldlM take (gathered only (a :: texts)) = _
      rw [ih others, List.reverse_cons, List.append_assoc]
      rfl

variable {only : Bool} {texts : List String}

theorem gatheredSettled (some : texts ≠ []) :
    (gathered only texts.reverse).settle =
      (texts.mapM readTile).map fun tiles =>
        {start with tiles := tiles.reverse, onlyTiles := only} := by
  have held : (gathered only texts.reverse).held = .tiles texts.reverse :=
    if_neg (by simpa using some)
  unfold settle
  rw [held]
  dsimp only
  rw [List.reverse_reverse, addTiles]
  simp [gathered, start]

theorem gatheredRefused {refusal : Refusal} (refused : texts.mapM readTile = .error refusal) :
    (gathered only texts.reverse).finish = .error refusal := by
  have some : texts ≠ [] := by
    rintro rfl
    contradiction
  rw [finish, gatheredSettled some, refused]
  rfl

theorem gatheredRead {tiles : List Tile} (some : texts ≠ [])
    (read : texts.mapM readTile = .ok tiles) :
    (gathered only texts.reverse).finish = .ok ⟨"config.json", none, false, tiles⟩ := by
  have given : tiles ≠ [] := by
    rintro rfl
    cases eachOk.mp read
    exact some rfl
  rw [finish, gatheredSettled some, read]
  change (if tiles.reverse.isEmpty then _ else _) = _
  rw [if_neg (by simpa using given), List.reverse_reverse]
  rfl

theorem gatheredJudged : Verdict texts (gathered only texts.reverse).finish := by
  by_cases none : texts = []
  · subst none
    exact .nothing
  · cases read : texts.mapM readTile with
    | ok tiles =>
        rw [gatheredRead none read]
        refine .tiles none ?_
        simpa only [eachOk, readTileOk] using read
    | error refusal =>
        rw [gatheredRefused read]
        obtain ⟨front, text, back, rfl, taken, refused⟩ := eachError.mp read
        obtain ⟨fault, bad, rfl⟩ := mapErrorError.mp refused
        simp only [readTileOk] at taken
        exact .refused taken bad

theorem judgedGathered {v : Except Refusal Request} (verdict : Verdict texts v) :
    (gathered only texts.reverse).finish = v := by
  cases verdict with
  | nothing => rfl
  | tiles some read =>
      refine gatheredRead some ?_
      simpa only [eachOk, readTileOk] using read
  | @refused front text back fault taken bad =>
      refine gatheredRefused (eachError.mpr ⟨front, text, back, rfl, ?_, ?_⟩)
      · simpa only [readTileOk] using taken
      · exact mapErrorError.mpr ⟨fault, bad, rfl⟩

theorem verdictExact (only : Bool) {v : Except Refusal Request} :
    (gathered only texts.reverse).finish = v ↔ Verdict texts v :=
  ⟨fun same => same ▸ gatheredJudged, judgedGathered⟩

end Progress

open Progress (gathered gatheredAll verdictExact)

theorem plainParsed {arguments : List String}
    (plain : ∀ a ∈ arguments, a.toList.head? ≠ some '-') {v : Except Refusal Request} :
    parse arguments = v ↔ Verdict arguments v := by
  have taken := gatheredAll false (fun a member => .inr (plain a member)) []
  rw [List.append_nil] at taken
  rw [← verdictExact false, parse]
  change arguments.foldlM Progress.take (gathered false []) >>= _ = _ ↔ _
  rw [taken]
  rfl

theorem dashesParsed {arguments : List String} {v : Except Refusal Request} :
    parse ("--" :: arguments) = v ↔ Verdict arguments v := by
  have taken := gatheredAll true (fun a (_ : a ∈ arguments) => .inl rfl) []
  rw [List.append_nil] at taken
  rw [← verdictExact true, parse, List.foldlM_cons]
  change arguments.foldlM Progress.take (gathered true []) >>= _ = _ ↔ _
  rw [taken]
  rfl

theorem dashedRefused {arguments : List String} {a : String} (member : a ∈ arguments)
    (dashed : a.toList.head? = some '-') :
    ∃ front text back fault, arguments = front ++ text :: back ∧ a ∉ front ∧
      parse ("--" :: arguments) = .error (.badTile text fault) := by
  have verdict : Verdict arguments (parse ("--" :: arguments)) := dashesParsed.mp rfl
  generalize same : parse ("--" :: arguments) = v at verdict
  cases verdict with
  | nothing => simp at member
  | tiles some read =>
      obtain ⟨i, bound, rfl⟩ := List.getElem_of_mem member
      exact absurd (read.get bound (read.length_eq ▸ bound)) (dashUnread dashed)
  | @refused front text back fault taken bad =>
      refine ⟨front, text, back, fault, rfl, fun earlier => ?_, rfl⟩
      obtain ⟨tile, read⟩ := taken a earlier
      exact dashUnread dashed read

theorem refusalShown {text : String} (plain : ∀ c ∈ text.toList, Text.isControl c = false)
    (fault : Extents.Fault) :
    (Refusal.badTile text fault).message =
      "error: invalid value '" ++ text ++ "' for '<M,N,K>...': " ++ fault.message text.toList ++
        "\n\nFor more information, try '--help'.\n" := by
  have shown : Text.withoutControls .ends text = text := by
    rw [Text.withoutControls, Text.Terminal.visiblePlain (.inl rfl) plain, String.ofList_toList]
  have start : "error: invalid value '" = "error: " ++ "invalid value '" := rfl
  unfold Refusal.message Refusal.explain Refusal.remark
  dsimp only
  rw [shown, start]
  simp only [toString, String.append_assoc]

theorem tilesOnly :
    (∀ arguments : List String, (∀ a ∈ arguments, a.toList.head? ≠ some '-') →
      ∀ v, parse arguments = v ↔ Verdict arguments v) ∧
    (∀ arguments v, parse ("--" :: arguments) = v ↔ Verdict arguments v) ∧
    (∀ (arguments : List String), ∀ a ∈ arguments, a.toList.head? = some '-' →
      ∃ front text back fault, arguments = front ++ text :: back ∧ a ∉ front ∧
        parse ("--" :: arguments) = .error (.badTile text fault)) ∧
    ∀ (text : String) (fault : Extents.Fault), (∀ c ∈ text.toList, Text.isControl c = false) →
      (Refusal.badTile text fault).message =
        "error: invalid value '" ++ text ++ "' for '<M,N,K>...': " ++ fault.message text.toList ++
          "\n\nFor more information, try '--help'.\n" :=
  ⟨fun _ plain _ => plainParsed plain, fun _ _ => dashesParsed,
    fun _ _ member dashed => dashedRefused member dashed,
    fun _ fault plain => refusalShown plain fault⟩

theorem secondRefused :
    parse ["8,1,4", "8,x,4", "9"] = .error (.badTile "8,x,4" (.extent ['x'] .digit)) ∧
    parse ["--", " 8,1,4", "+9,9,9"] = .ok ⟨"config.json", none, false, [⟨8, 1, 4⟩, ⟨9, 9, 9⟩]⟩ ∧
    (∃ front text back fault, ["8,1,4", "--", "-v"] = front ++ text :: back ∧ "-v" ∉ front ∧
      parse ["--", "8,1,4", "--", "-v"] = .error (.badTile text fault)) ∧
    (Refusal.badTile "8,x,4" (.extent ['x'] .digit)).message =
      "error: invalid value '8,x,4' for '<M,N,K>...': invalid extent \"x\" in \"8,x,4\": " ++
        "invalid digit found in string\n\nFor more information, try '--help'.\n" := by
  have first : Tile.ofText "8,1,4" = .ok ⟨8, 1, 4⟩ := by decide +kernel
  have second : Tile.ofText "8,x,4" = .error (.extent ['x'] .digit) := by decide +kernel
  have padded : Tile.ofText " 8,1,4" = .ok ⟨8, 1, 4⟩ := by decide +kernel
  have signed : Tile.ofText "+9,9,9" = .ok ⟨9, 9, 9⟩ := by decide +kernel
  obtain ⟨plain, dashes, dashed, shown⟩ := tilesOnly
  refine ⟨(plain _ (by decide) _).mpr ?_, (dashes _ _).mpr ?_, dashed _ _ (by simp) (by decide), ?_⟩
  · exact @Verdict.refused ["8,1,4"] _ _ _ (by simpa using ⟨_, first⟩) second
  · exact .tiles (by simp) (.cons padded (.cons signed .nil))
  · have plain := shown "8,x,4" (.extent ['x'] .digit) (by simp [Text.isControl])
    exact plain.trans (by decide +kernel)

end TileCost.CommandLine
