import TileCost.Disk.Tree
import TileCost.Proofs.Text.Pieces

/-! Paths of a tree that lead nowhere, whatever the files in it hold: a walk that has gone wrong
is not mended by what comes behind it, and following links puts it off but not right. -/
namespace TileCost.Tree

theorem componentsBehind (front back : String) :
    components (front ++ "/" ++ back) = components front ++ components back := by
  have slash : "/".toList = ['/'] := rfl
  unfold components
  rw [String.toList_append, String.toList_append, slash, List.append_assoc, List.singleton_append,
    Text.partsBetween, List.map_append]

theorem componentsSome (path : String) : components path ≠ [] := by
  simp [components]

theorem startBehind {front : String} (named : front ≠ "") (folder : Place) (back : String) :
    folder.start (front ++ back) = folder.start front := by
  unfold Place.start
  rw [String.toList_append, List.head?_append_of_ne_nil]
  simpa using named

variable {t : Tree} {place : Place} {here : Entry} {name : String} {front back : List String}

theorem advanceClosed (closed : t.isClosed place = true) (step : name ≠ "") :
    t.advance place name = .error .denied := by
  simp [advance, step, closed]

theorem advanceLong (long : maxName < name.utf8ByteSize) :
    ∃ fault, t.advance place name = .error fault := by
  have other {short : String} (size : short.utf8ByteSize ≤ maxName) : name ≠ short := by
    rintro rfl
    omega
  have step := other (by decide : "".utf8ByteSize ≤ maxName)
  cases closed : t.isClosed place with
  | true => exact ⟨_, advanceClosed closed step⟩
  | false =>
      refine ⟨.longName, ?_⟩
      simp [advance, step, closed, other (by decide : ".".utf8ByteSize ≤ maxName),
        other (by decide : "..".utf8ByteSize ≤ maxName), long]

def onward (t : Tree) (back : List String) : Walk → Except SystemFault Walk
  | .arrived place here => t.walk place here back
  | .linked folder target rest => .ok (.linked folder target (rest ++ back))

theorem walkAppend :
    t.walk place here (front ++ back) = t.walk place here front >>= t.onward back := by
  induction front generalizing place here with
  | nil => rfl
  | cons name front ih =>
      cases here with
      | file content => rfl
      | folder =>
          simp only [walk, List.cons_append]
          cases t.advance place name with
          | error fault => rfl
          | ok step =>
              cases step with
              | linked target => rfl
              | moved next entry => exact ih

theorem walkLong (among : name ∈ front) (long : maxName < name.utf8ByteSize) :
    (∃ fault, t.walk place here front = .error fault) ∨
      ∃ folder target rest, t.walk place here front = .ok (.linked folder target rest) ∧
        name ∈ rest := by
  induction front generalizing place here with
  | nil => contradiction
  | cons first others ih =>
      cases here with
      | file content => exact .inl ⟨_, rfl⟩
      | folder =>
          simp only [walk]
          rcases List.mem_cons.mp among with rfl | later
          · obtain ⟨fault, refused⟩ := @advanceLong t place name long
            exact .inl ⟨fault, by rw [refused]⟩
          · cases t.advance place first with
            | error fault => exact .inl ⟨fault, rfl⟩
            | ok step =>
                cases step with
                | linked target => exact .inr ⟨place, target, others, rfl, later⟩
                | moved next entry => exact ih later

variable {walks : Nat}

/- A path goes on behind another one only where that leads to a folder, and starts from there
with the walks that are left. -/
theorem resolveBehind (more : back ≠ []) :
    (∃ fault, t.resolve walks place (front ++ back) = .error fault) ∨
      ∃ last left, t.resolve walks place front = .ok (last, .folder) ∧
        t.resolve walks place (front ++ back) = t.resolve (left + 1) last back := by
  induction walks generalizing place front with
  | zero => exact .inl ⟨_, rfl⟩
  | succ walks ih =>
      simp only [resolve, walkAppend]
      cases t.walk place .folder front with
      | error fault => exact .inl ⟨fault, rfl⟩
      | ok stop =>
          cases stop with
          | linked folder target rest =>
              have later := @ih (folder.start target) (components target ++ rest)
              rw [List.append_assoc] at later
              exact later
          | arrived last here =>
              cases here with
              | folder => exact .inr ⟨last, walks, rfl, rfl⟩
              | file content =>
                  obtain ⟨name, rest, rfl⟩ := List.exists_cons_of_ne_nil more
                  exact .inl ⟨.notFolder, rfl⟩

theorem resolveLong (among : name ∈ front) (long : maxName < name.utf8ByteSize) :
    ∃ fault, t.resolve walks place front = .error fault := by
  induction walks generalizing place front with
  | zero => exact ⟨_, rfl⟩
  | succ walks ih =>
      simp only [resolve]
      rcases @walkLong t place .folder name front among long with
        ⟨fault, refused⟩ | ⟨folder, target, rest, linked, later⟩
      · exact ⟨fault, by rw [refused]⟩
      · rw [linked]
        exact ih (List.mem_append_right _ later)

/- Each walk ends at the link again. -/
theorem resolveCircular (linked : t.advance place name = .ok (.linked name))
    (single : components name = [name]) (relative : place.start name = place) :
    t.resolve walks place [name] = .error .manyLinks := by
  induction walks with
  | zero => rfl
  | succ walks ih =>
      have back : t.walk place .folder [name] = .ok (.linked place name []) := by
        simp [walk, linked]
      simp only [resolve, back, single, relative]
      exact ih

inductive Nowhere (t : Tree) : String → Prop where
  | empty : Nowhere t ""
  | null {path} (there : '\x00' ∈ path.toList) : Nowhere t path
  | long {path} (size : maxPath < path.utf8ByteSize) : Nowhere t path
  | longName {path among} (found : among ∈ components path) (size : maxName < among.utf8ByteSize) :
      Nowhere t path
  | behind {path rest} (named : path ≠ "") (stuck : ∀ place, t.find path ≠ .ok (place, .folder)) :
      Nowhere t (path ++ "/" ++ rest)
  | closed {path rest folder next others} (named : path ≠ "")
      (found : t.find path = .ok (folder, .folder)) (closed : t.isClosed folder = true)
      (inside : components rest = next :: others) (step : next ≠ "") :
      Nowhere t (path ++ "/" ++ rest)
  | circular {path} (linked : t.advance (.inside []) path = .ok (.linked path))
      (single : components path = [path]) (relative : path.toList.head? ≠ some '/') :
      Nowhere t path

theorem findFollows {path : String} (plain : '\x00' ∉ path.toList) (named : path ≠ "")
    (short : path.utf8ByteSize ≤ maxPath) :
    t.find path = t.resolve (maxLinks + 1) ((Place.inside []).start path) (components path) := by
  simp [find, plain, named, Nat.not_lt.mpr short]

theorem findFollowed (t : Tree) (path : String) :
    (∃ fault, t.find path = .error fault) ∨
      '\x00' ∉ path.toList ∧ path ≠ "" ∧ path.utf8ByteSize ≤ maxPath := by
  unfold find
  split
  · exact .inl ⟨_, rfl⟩
  · split
    · exact .inl ⟨_, rfl⟩
    · split
      · exact .inl ⟨_, rfl⟩
      · exact .inr ⟨by simp_all, by assumption, by omega⟩

theorem findBehind {front : String} (named : front ≠ "") (back : String) :
    (∃ fault, t.find (front ++ "/" ++ back) = .error fault) ∨
      ∃ last left, t.find front = .ok (last, .folder) ∧
        t.find (front ++ "/" ++ back) = t.resolve (left + 1) last (components back) := by
  rcases t.findFollowed (front ++ "/" ++ back) with fault | ⟨plain, named', short⟩
  · exact .inl fault
  · have whole : (front ++ "/" ++ back).utf8ByteSize =
        front.utf8ByteSize + "/".utf8ByteSize + back.utf8ByteSize := by simp
    have plain' : '\x00' ∉ front.toList := by
      rw [String.toList_append, String.toList_append] at plain
      simp_all
    rw [findFollows plain named' short, findFollows plain' named (by omega), componentsBehind,
      String.append_assoc, startBehind named]
    exact resolveBehind (componentsSome back)

theorem nowhereFault {path : String} (nowhere : t.Nowhere path) :
    ∃ fault, t.find path = .error fault := by
  rcases t.findFollowed path with fault | ⟨plain, written, short⟩
  · exact fault
  · cases nowhere with
    | empty => exact absurd rfl written
    | null there => exact absurd there plain
    | long size => omega
    | longName among size =>
        rw [findFollows plain written short]
        exact resolveLong among size
    | behind named stuck =>
        rcases findBehind named _ with fault | ⟨last, left, folder, _⟩
        · exact fault
        · exact absurd folder (stuck last)
    | closed named folder closed inside step =>
        rcases findBehind named _ with fault | ⟨last, left, folder', onward⟩
        · exact fault
        · cases folder.symm.trans folder'
          rw [onward, inside]
          exact ⟨.denied, by simp [resolve, walk, advanceClosed closed step]⟩
    | circular linked single relative =>
        have start : (Place.inside []).start path = .inside [] := if_neg relative
        rw [findFollows plain written short, single, start]
        exact ⟨_, resolveCircular linked single start⟩

end TileCost.Tree
