import FirmwareUpgrade.Files
import Mathlib.Data.List.Induction

/-!
# Reading what was written

Writing a file gives just this file new contents.  The way to it leads through directories only, and
those are the same whatever files there are, so the path still leads to the file afterwards.
-/

namespace FirmwareUpgrade.Files

variable {files after : Files} {directory : Directory} {name : String} {contents : ByteArray}

/-! ## One file among the others -/

theorem lookup_overwritten (entries : List ((Directory × String) × ByteArray))
    (target file : Directory × String) (contents : ByteArray) :
    (entries.map fun entry => if entry.1 = target then (entry.1, contents) else entry).lookup file =
      if file = target then (entries.lookup file).map fun _ => contents
      else entries.lookup file := by
  induction entries with
  | nil => simp
  | cons entry entries ih =>
      obtain ⟨key, bytes⟩ := entry
      by_cases hkey : file = key
      · subst hkey
        by_cases htarget : file = target
        · simp [htarget]
        · simp [htarget]
      · have hne : (file == key) = false := by simpa using hkey
        by_cases htarget : key = target
        · simpa [htarget, List.lookup_cons, hne, htarget ▸ hne] using ih
        · simpa [htarget, List.lookup_cons, hne] using ih

/-- What a file contains after one of them was given new contents. -/
theorem get?_put (files : Files) (directory other : Directory) (name file : String)
    (contents : ByteArray) :
    (files.put directory name contents).get? other file =
      if (other, file) = (directory, name) then some contents else files.get? other file := by
  have hget (entries : List ((Directory × String) × ByteArray)) :
      (Files.mk entries).get? other file = entries.lookup (other, file) := rfl
  unfold put
  cases hexisting : files.get? directory name with
  | some bytes =>
      rw [Option.isSome_some, if_pos rfl, hget, lookup_overwritten]
      by_cases hsame : (other, file) = (directory, name)
      · rw [if_pos hsame, if_pos hsame, hsame]
        exact congrArg (Option.map _) hexisting
      · rw [if_neg hsame, if_neg hsame]
        rfl
  | none =>
      rw [if_neg (by simp), hget, List.lookup_append]
      by_cases hsame : (other, file) = (directory, name)
      · have hnone : files.entries.lookup (directory, name) = none := hexisting
        simp [hsame, hnone]
      · have hne : ((other, file) == (directory, name)) = false := by simpa using hsame
        simp [hsame, List.lookup_cons, hne, get?]

/-! ## Paths -/

theorem exists_of_bind_ok {α β : Type} {first : Except FileError α} {next : α → Except FileError β}
    {result : β} (hbind : first >>= next = .ok result) :
    ∃ value, first = .ok value ∧ next value = .ok result := by
  cases first with
  | error error => cases hbind
  | ok value => exact ⟨value, rfl, hbind⟩

/-- The directories in a directory are there whatever files there are. -/
theorem find_of_directory {start : Directory}
    (hfind : files.find start name = .ok (some (.directory directory))) (other : Files) :
    other.find start name = .ok (some (.directory directory)) := by
  unfold find at hfind ⊢
  by_cases hlong : Path.stepLimit < name.utf8ByteSize
  · rw [if_pos hlong] at hfind
    cases hfind
  rw [if_neg hlong] at hfind ⊢
  by_cases hstandard : start = .root ∧ name ∈ Directory.standardNames
  · rwa [if_pos hstandard] at hfind ⊢
  rw [if_neg hstandard] at hfind
  cases hspecial : SpecialFile.find? start name with
  | some file => simp [hspecial] at hfind
  | none => cases hget : files.get? start name <;> simp [hspecial, hget] at hfind

theorem step_of_directory {place : Place}
    (hstep : files.step place name = .ok (.directory directory)) (other : Files) :
    other.step place name = .ok (.directory directory) := by
  cases place with
  | file bytes => cases hstep
  | special file => cases hstep
  | directory start =>
      simp only [step] at hstep ⊢
      by_cases hdot : name = "."
      · rwa [if_pos hdot] at hstep ⊢
      rw [if_neg hdot] at hstep ⊢
      by_cases hdots : name = ".."
      · rwa [if_pos hdots] at hstep ⊢
      rw [if_neg hdots] at hstep ⊢
      cases hfind : files.find start name with
      | error error => simp [hfind] at hstep
      | ok found =>
          cases found with
          | none => simp [hfind] at hstep
          | some place =>
              simp only [hfind, Except.ok.injEq] at hstep
              subst hstep
              rw [find_of_directory hfind other]

/-- A way that ends at a directory has led through directories only. -/
theorem foldlM_of_directory {steps : List String} {start : Place}
    (hsteps : steps.foldlM files.step start = .ok (.directory directory)) (other : Files) :
    steps.foldlM other.step start = .ok (.directory directory) := by
  induction steps using List.reverseRecOn generalizing directory with
  | nil => exact hsteps
  | append_singleton steps last ih =>
      rw [List.foldlM_append] at hsteps ⊢
      obtain ⟨place, hway, hsteps⟩ := exists_of_bind_ok hsteps
      rw [List.foldlM_cons] at hsteps
      obtain ⟨reached, hlast, hreached⟩ := exists_of_bind_ok hsteps
      cases hreached
      cases place with
      | directory middle =>
          rw [ih hway]
          change [last].foldlM other.step (.directory middle) = _
          rw [List.foldlM_cons, step_of_directory hlast other]
          rfl
      | file bytes => cases hlast
      | special file => cases hlast

theorem follow_last {path : Path} {way : List String} {place : Place}
    (hsplit : path.split? = some (way, name))
    (hway : files.follow path.absolute way = .ok place) :
    files.follow path.absolute path.steps = files.step place name := by
  obtain ⟨last, hlast, hparts⟩ := Option.map_eq_some_iff.mp hsplit
  obtain ⟨rfl, rfl⟩ := Prod.mk.inj hparts
  obtain ⟨front, hfront⟩ := List.getLast?_eq_some_iff.mp hlast
  rw [hfront, List.dropLast_concat] at hway
  unfold follow at hway ⊢
  rw [hfront, List.foldlM_append, hway]
  exact bind_pure (files.step place last)

/-! ## Writing -/

/-- A file that was given new contents, old or new itself, is found with them. -/
theorem find_put (hfind : files.find directory name = .ok none ∨
      ∃ old, files.find directory name = .ok (some (.file old))) (contents : ByteArray) :
    (files.put directory name contents).find directory name = .ok (some (.file contents)) := by
  unfold find at hfind ⊢
  by_cases hlong : Path.stepLimit < name.utf8ByteSize
  · simp [hlong] at hfind
  by_cases hstandard : directory = .root ∧ name ∈ Directory.standardNames
  · simp [hlong, hstandard] at hfind
  rw [if_neg hlong, if_neg hstandard] at hfind ⊢
  cases hspecial : SpecialFile.find? directory name with
  | some file => simp [hspecial] at hfind
  | none => simp [get?_put]

theorem read_put {text : String} {path : Path} {way : List String}
    (htext : Path.ofText text = .ok path) (hsplit : path.split? = some (way, name))
    (hway : files.follow path.absolute way = .ok (.directory directory))
    (hname : ¬ (path.slashed ∨ name = "." ∨ name = ".."))
    (hfind : files.find directory name = .ok none ∨
      ∃ old, files.find directory name = .ok (some (.file old))) (contents : ByteArray) :
    (files.put directory name contents).read text = .ok contents := by
  obtain ⟨hslashed, hdot, hdots⟩ : path.slashed = false ∧ name ≠ "." ∧ name ≠ ".." := by
    simpa using hname
  have hway' := foldlM_of_directory hway (files.put directory name contents)
  have hstep : (files.put directory name contents).step (.directory directory) name =
      .ok (.file contents) := by
    simp only [step, if_neg hdot, if_neg hdots, find_put hfind]
  have hfollow := (follow_last hsplit hway').trans hstep
  unfold read
  rw [htext]
  change ((files.put directory name contents).follow path.absolute path.steps >>= _) = _
  rw [hfollow]
  exact if_neg (by simp [hslashed])

/-- The special file that a path leads to, if it leads to one. -/
def special? (files : Files) (text : String) : Option SpecialFile :=
  match Path.ofText text with
  | .error _ => none
  | .ok path =>
    match files.follow path.absolute path.steps with
    | .ok (.special file) => some file
    | _ => none

theorem special?_eq {text : String} {path : Path} {way : List String} {found : Option Place}
    (htext : Path.ofText text = .ok path) (hsplit : path.split? = some (way, name))
    (hway : files.follow path.absolute way = .ok (.directory directory))
    (hname : ¬ (path.slashed ∨ name = "." ∨ name = ".."))
    (hfind : files.find directory name = .ok found) :
    files.special? text = match found with
      | some (.special file) => some file
      | _ => none := by
  obtain ⟨-, hdot, hdots⟩ : path.slashed = false ∧ name ≠ "." ∧ name ≠ ".." := by
    simpa using hname
  simp only [special?, htext, follow_last hsplit hway, step, if_neg hdot, if_neg hdots, hfind]
  rcases found with _ | _ | _ | _ <;> rfl

/-- If the path leads to a special file, nothing has changed.  Otherwise it leads to a file that has
the contents now. -/
theorem write_ok {text : String} (hwrite : files.write text contents = .ok after) :
    (∀ file, files.special? text = some file → after = files ∧ file.write contents = .ok ()) ∧
      (files.special? text = none → ∃ directory name,
        after = files.put directory name contents ∧ after.read text = .ok contents) := by
  obtain ⟨path, htext, hwrite⟩ := exists_of_bind_ok hwrite
  cases hsplit : path.split? with
  | none => simp [hsplit] at hwrite
  | some parts =>
      obtain ⟨way, name⟩ := parts
      simp only [hsplit] at hwrite
      obtain ⟨place, hway, hwrite⟩ := exists_of_bind_ok hwrite
      cases place with
      | file bytes => cases hwrite
      | special file => cases hwrite
      | directory start =>
          by_cases hname : path.slashed ∨ name = "." ∨ name = ".."
          · simp [hname] at hwrite
          simp only [if_neg hname] at hwrite
          obtain ⟨found, hfind, hwrite⟩ := exists_of_bind_ok hwrite
          rw [special?_eq htext hsplit hway hname hfind]
          match found with
          | some (.directory inner) => cases hwrite
          | some (.special file) =>
              obtain ⟨hwritten, hdone⟩ : file.write contents = .ok () ∧ files = after := by
                cases hspecial : file.write contents <;> simp_all [Except.map]
              refine ⟨?_, by simp⟩
              rintro other ⟨⟩
              exact ⟨hdone.symm, hwritten⟩
          | some (.file old) =>
              cases hwrite
              exact ⟨by simp, fun _ =>
                ⟨start, name, rfl, read_put htext hsplit hway hname (.inr ⟨old, hfind⟩) _⟩⟩
          | none =>
              cases hwrite
              exact ⟨by simp, fun _ =>
                ⟨start, name, rfl, read_put htext hsplit hway hname (.inl hfind) _⟩⟩

end FirmwareUpgrade.Files
