import TapeMachine.Store.Basic
import TapeMachine.Proofs.Outcome

set_option autoImplicit false

namespace TapeMachine.Store

def target (path : Text) : Place := (pathPieces path).foldl follow (if isAbsolute path then rootPlace else [])

def content? (s : Store) (place : Place) : Option Bytes :=
  match s.node place with
  | .file bytes => some bytes
  | _ => none

theorem content_file (s : Store) (place : Place) (bytes : Bytes) (held : s.content? place = some bytes) :
    s.node place = .file bytes := by
  rw [content?] at held
  split at held
  · rename_i stored
    rw [stored, Option.some.inj held]
  · cases held

def KeepsFolders (s s' : Store) : Prop := ∀ place, s.node place = .folder → s'.node place = .folder

def SameFolders (s s' : Store) : Prop := ∀ place, s'.node place = .folder ↔ s.node place = .folder

def KeepsFiles (s s' : Store) : Prop := ∀ place, s.content? place ≠ none → s'.content? place ≠ none

theorem walk_target (s : Store) (path : Text) (here place : Place) (names : List Text)
    (walked : s.walk path here names = .ok place) :
    place = names.foldl follow here := by
  induction names generalizing here with
  | nil => exact (Except.ok.inj walked).symm
  | cons name rest ih =>
      simp only [walk] at walked
      split at walked
      · cases walked
      · split at walked
        · rename_i last
          subst last
          exact (Except.ok.inj walked).symm
        · split at walked
          · exact ih _ walked
          · cases walked
          · cases walked

theorem locate_ok (s : Store) (path : Text) (place : Place) (located : s.locate path = .ok place) :
    (StoreFault.formless path).2 = [] ∧ (path.any fun c => c.val = 0) = false ∧
      nameSize path ≤ longestPath ∧ path ≠ [] ∧
      s.walk path (if isAbsolute path then rootPlace else []) (pathPieces path) = .ok place := by
  simp only [locate] at located
  split at located
  · cases located
  · rename_i formed
    split at located
    · cases located
    · rename_i whole
      split at located
      · cases located
      · rename_i short
        split at located
        · cases located
        · rename_i filled
          exact ⟨by simpa using formed, by simpa using whole, Nat.le_of_not_lt short, filled, located⟩

theorem locate_target (s : Store) (path : Text) (place : Place) (located : s.locate path = .ok place) :
    place = target path :=
  walk_target s path _ place _ (locate_ok s path place located).2.2.2.2

theorem walk_keeps (s s' : Store) (keeps : s.KeepsFolders s') (path : Text) (here place : Place) (names : List Text)
    (walked : s.walk path here names = .ok place) : s'.walk path here names = .ok place := by
  induction names generalizing here with
  | nil => exact walked
  | cons name rest ih =>
      simp only [walk] at walked ⊢
      split at walked
      · cases walked
      · rename_i short
        rw [if_neg short]
        split at walked
        · rename_i last
          rw [if_pos last]
          exact walked
        · rename_i more
          rw [if_neg more]
          split at walked
          · rename_i folder
            rw [keeps _ folder]
            exact ih _ walked
          · cases walked
          · cases walked

theorem locate_keeps (s s' : Store) (keeps : s.KeepsFolders s') (path : Text) (place : Place)
    (located : s.locate path = .ok place) :
    s'.locate path = .ok place := by
  obtain ⟨formed, whole, short, filled, walked⟩ := locate_ok s path place located
  rw [locate, if_neg (by simp [formed]), if_neg (by simp [whole]), if_neg (Nat.not_lt.mpr short), if_neg filled]
  exact walk_keeps s s' keeps path _ place _ walked

theorem find_place_file (place query : Place) (bytes : Bytes) (files : List (Place × Bytes)) :
    (placeFile place bytes files).find? (fun f => f.1 = query) =
      if query = place then some (place, bytes) else files.find? fun f => f.1 = query := by
  induction files with
  | nil =>
      by_cases here : query = place
      · simp [placeFile, here]
      · simp [placeFile, here, Ne.symm here]
  | cons file rest ih =>
      obtain ⟨p, b⟩ := file
      rw [placeFile]
      by_cases old : p = place
      · subst old
        by_cases here : query = p
        · simp [here]
        · simp [here, Ne.symm here]
      · rw [if_neg old, List.find?_cons, List.find?_cons]
        by_cases hit : p = query
        · subst hit
          simp [old]
        · simp [hit, ih]

theorem node_set_file (s : Store) (place query : Place) (bytes : Bytes) (file : s.node place ≠ .folder) :
    (s.setFile place bytes).node query = if query = place then .file bytes else s.node query := by
  by_cases here : query = place
  · subst here
    rw [if_pos rfl]
    rw [node] at file ⊢
    split at file
    · exact absurd rfl file
    · rename_i outside
      simp only [setFile, if_neg outside, find_place_file, if_true]
  · rw [if_neg here, node, node]
    simp only [setFile, find_place_file, if_neg here]

theorem set_file_folders (s : Store) (place : Place) (bytes : Bytes) (file : s.node place ≠ .folder) :
    s.SameFolders (s.setFile place bytes) := by
  intro query
  rw [node_set_file s place query bytes file]
  split
  · rename_i same
    subst same
    simp [file]
  · exact Iff.rfl

theorem same_folders_keeps (s s' : Store) (same : s.SameFolders s') : s.KeepsFolders s' := fun place => (same place).mpr

variable (s s' : Store) (path : Text) (change : Bytes → Bytes)

theorem update_ok (updated : s.update path change = .ok s') :
    ∃ place, s.locate path = .ok place ∧ s.node place ≠ .folder ∧ namesFolder path = false ∧
      s' = s.setFile place (change ((s.content? place).getD [])) := by
  rw [update] at updated
  cases located : s.locate path with
  | error fault =>
      rw [located] at updated
      cases updated
  | ok place =>
      simp only [located, ok_bind] at updated
      split at updated
      · rename_i bytes held
        split at updated
        · cases updated
        · rename_i named
          refine ⟨place, rfl, by simp [held], by simpa using named, ?_⟩
          rw [content?, held]
          exact (Except.ok.inj updated).symm
      · cases updated
      · rename_i empty
        split at updated
        · cases updated
        · rename_i named
          refine ⟨place, rfl, by simp [empty], by simpa using named, ?_⟩
          rw [content?, empty]
          exact (Except.ok.inj updated).symm

theorem update_again (place : Place) (located : s.locate path = .ok place) (file : s.node place ≠ .folder)
    (named : namesFolder path = false) : s.update path change =
    .ok (s.setFile place (change ((s.content? place).getD []))) := by
  rw [update, located]
  cases held : s.node place with
  | folder => exact absurd held file
  | file bytes => simp [held, named, content?]
  | absent => simp [held, named, content?]

theorem content_set_file (place query : Place) (bytes : Bytes) (file : s.node place ≠ .folder) :
    (s.setFile place bytes).content? query = if query = place then some bytes else s.content? query := by
  rw [content?, content?, node_set_file s place query bytes file]
  by_cases here : query = place
  · rw [if_pos here, if_pos here]
  · rw [if_neg here, if_neg here]

theorem update_changes (updated : s.update path change = .ok s') :
    s.SameFolders s' ∧ ∀ query, s'.content? query =
      if query = target path then some (change ((s.content? (target path)).getD [])) else s.content? query := by
  obtain ⟨place, located, file, _, rfl⟩ := update_ok s s' path change updated
  rw [← locate_target s path place located]
  exact ⟨set_file_folders s place _ file, fun query => content_set_file s place query _ file⟩

theorem update_keeps_files (updated : s.update path change = .ok s') : s.KeepsFiles s' := by
  intro place held
  rw [(update_changes s s' path change updated).2 place]
  split
  · exact Option.some_ne_none _
  · exact held

theorem update_twice (again : Bytes → Bytes) (updated : s.update path change = .ok s') :
    ∃ t, s'.update path again = .ok t := by
  obtain ⟨place, located, file, named, rfl⟩ := update_ok s s' path change updated
  have same := set_file_folders s place (change ((s.content? place).getD [])) file
  exact ⟨_, update_again _ path again place (locate_keeps _ _ (same_folders_keeps _ _ same) path place located)
    (fun folder => file ((same place).mp folder)) named⟩

theorem make_folder_ok (made : s.makeFolder path = .ok s') :
    s.KeepsFolders s' ∧ ∀ query, s'.content? query = s.content? query := by
  rw [makeFolder] at made
  cases located : s.locate path with
  | error fault =>
      rw [located] at made
      cases made
  | ok place =>
      simp only [located, ok_bind] at made
      split at made
      · rename_i empty
        obtain rfl := Except.ok.inj made
        have nodes (query : Place) : node { s with folders := s.folders ++ [place] } query =
            if query = place then .folder else s.node query := by
          by_cases here : query = place
          · simp [node, here]
          · simp [node, here]
        refine ⟨?_, ?_⟩
        · intro query folder
          rw [nodes, folder, ite_self]
        · intro query
          rw [content?, content?, nodes]
          by_cases here : query = place
          · rw [if_pos here, here, empty]
          · rw [if_neg here]
      · cases made

theorem make_folder_unless_ok (made : s.makeFolderUnless path = .ok s') :
    s.KeepsFolders s' ∧ ∀ query, s'.content? query = s.content? query := by
  rw [makeFolderUnless] at made
  split at made
  · rename_i t fresh
    obtain rfl := Except.ok.inj made
    exact make_folder_ok s t path fresh
  · split at made
    · obtain rfl := Except.ok.inj made
      exact ⟨fun _ folder => folder, fun _ => rfl⟩
    · cases made

theorem make_path_within_ok (fuel : Nat) (p : Path) (made : makePathWithin fuel s p = .ok s') :
    s.KeepsFolders s' ∧ ∀ query, s'.content? query = s.content? query := by
  induction fuel generalizing s s' p with
  | zero => exact make_folder_unless_ok s s' _ made
  | succ fuel ih =>
      rw [makePathWithin] at made
      split at made
      · rename_i t fresh
        obtain rfl := Except.ok.inj made
        exact make_folder_ok s t _ fresh
      · split at made
        · cases made
        · cases above : makePathWithin fuel s p.parent with
          | error fault =>
              rw [above] at made
              cases made
          | ok t =>
              rw [above] at made
              obtain ⟨first, same⟩ := ih s t p.parent above
              obtain ⟨second, again⟩ := make_folder_unless_ok t s' _ made
              exact ⟨fun query folder => second query (first query folder),
                fun query => (again query).trans (same query)⟩
      · split at made
        · obtain rfl := Except.ok.inj made
          exact ⟨fun _ folder => folder, fun _ => rfl⟩
        · cases made

theorem make_last_ok (tail : Text) (made : (if tail = thisFolder then .ok s else s.makeFolderUnless path) = .ok s') :
    s.KeepsFolders s' ∧ ∀ query, s'.content? query = s.content? query := by
  split at made
  · obtain rfl := Except.ok.inj made
    exact ⟨fun _ folder => folder, fun _ => rfl⟩
  · exact make_folder_unless_ok s s' _ made

theorem make_folders_within_ok (fuel : Nat) (made : makeFoldersWithin fuel s path = .ok s') :
    s.KeepsFolders s' ∧ ∀ query, s'.content? query = s.content? query := by
  induction fuel generalizing s s' path with
  | zero => exact make_folder_unless_ok s s' _ made
  | succ fuel ih =>
      rw [makeFoldersWithin] at made
      dsimp only at made
      generalize (if lastPiece path = [] then folderOf path else path) = whole at made
      split at made
      · split at made
        · exact make_last_ok s s' path _ made
        · cases made
        · rename_i t above
          obtain ⟨first, same⟩ := ih s t _ above
          obtain ⟨second, again⟩ := make_last_ok t s' path _ made
          exact ⟨fun query folder => second query (first query folder), fun query => (again query).trans (same query)⟩
      · exact make_folder_unless_ok s s' _ made

end TapeMachine.Store
