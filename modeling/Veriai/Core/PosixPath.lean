import Veriai.Core.Bytes

/-!
# Paths as their components

A path is a byte string; its components are the parts between slashes. Empty
parts and dots are left out, but for a dot that a relative path begins with.
The parent and the file name are read off the last component.
-/

namespace Veriai.PosixPath

def slash : UInt8 := 0x2F

def dot : UInt8 := 0x2E

/-- `std::path::Component` on Unix. -/
inductive Component where
  | rootDir
  | curDir
  | parentDir
  | normal (name : Bytes)
  deriving DecidableEq

/-- The component of a part between slashes. -/
def component (part : Bytes) : Option Component :=
  if part = [] ∨ part = [dot] then none
  else if part = [dot, dot] then some .parentDir
  else some (.normal part)

/-- What a path begins with: the root, or the current directory if that is spelled out. -/
def lead (path : Bytes) : List Component :=
  if path.head? = some slash then [.rootDir]
  else if (path.splitOn slash).head? = some [dot] then [.curDir]
  else []

/-- `Path::components`. -/
def components (path : Bytes) : List Component :=
  lead path ++ (path.splitOn slash).filterMap component

/-- `Path::parent`, by its components: the empty path has none. -/
def parent (path : Bytes) : Option (List Component) :=
  match (components path).getLast? with
  | some .curDir | some .parentDir | some (.normal _) => some (components path).dropLast
  | some .rootDir | none => none

/-- `Path::file_name`. -/
def fileName (path : Bytes) : Option Bytes :=
  match (components path).getLast? with
  | some (.normal name) => some name
  | _ => none

/-- `OsStr::to_str`. -/
def toStr (name : Bytes) : Option String := String.fromUTF8? ⟨name.toArray⟩

@[simp] theorem toStr_utf8Bytes (s : String) : toStr (utf8Bytes s) = some s := by
  simp [toStr, utf8Bytes, String.fromUTF8?, s.isValidUTF8, String.fromUTF8]

/-- A part that is the name of a file. -/
structure IsName (part : Bytes) : Prop where
  nonempty : part ≠ []
  whole : slash ∉ part
  notCurDir : part ≠ [dot]
  notParentDir : part ≠ [dot, dot]

theorem IsName.component {part : Bytes} (h : IsName part) :
    component part = some (.normal part) := by
  simp [PosixPath.component, h.nonempty, h.notCurDir, h.notParentDir]

theorem components_name {name : Bytes} (h : IsName name) : components name = [.normal name] := by
  have hsplit : name.splitOn slash = [name] := List.splitOn_eq_singleton h.whole
  have hhead : name.head? ≠ some slash := fun hs => h.whole (List.mem_of_head? hs)
  simp [components, lead, hsplit, hhead, h.notCurDir, h.component]

/-- What stands behind a slash does not matter to the beginning. -/
theorem lead_append (front rest : Bytes) :
    lead (front ++ slash :: rest) = lead (front ++ [slash]) := by
  have hparts (rest : Bytes) :
      ((front ++ slash :: rest).splitOn slash).head? = (front.splitOn slash).head? := by
    rw [List.splitOn_append_cons_self, List.head?_append_of_ne_nil _ (List.splitOn_ne_nil _ _)]
  have hhead : (front ++ slash :: rest).head? = (front ++ [slash]).head? := by
    cases front <;> rfl
  simp only [lead, hhead, hparts]

theorem components_directory (front : Bytes) : components (front ++ [slash]) =
    lead (front ++ [slash]) ++ (front.splitOn slash).filterMap component := by
  simp [components, List.splitOn_append_cons_self, component]

/-- The file name is the last component. -/
theorem components_append {front name : Bytes} (h : IsName name) :
    components (front ++ slash :: name) = components (front ++ [slash]) ++ [.normal name] := by
  have hsplit : name.splitOn slash = [name] := List.splitOn_eq_singleton h.whole
  rw [components_directory, components, lead_append, List.splitOn_append_cons_self, hsplit]
  simp [h.component]

/-- A path that begins with a part between slashes has a component. -/
private theorem components_cons_ne_nil {b : UInt8} {front : Bytes} (hb : b ≠ slash) :
    components ((b :: front) ++ [slash]) ≠ [] := by
  obtain ⟨part, parts, hparts⟩ := List.exists_cons_of_ne_nil (List.splitOn_ne_nil slash front)
  have hsplit : (b :: front).splitOn slash = (b :: part) :: parts := by
    simp [List.splitOn_cons_eq_if_modifyHead, hb, hparts]
  rw [components_directory, hsplit]
  by_cases hdot : b :: part = [dot]
  · have hlead : lead (b :: front ++ [slash]) = [.curDir] := by
      rw [lead, List.splitOn_append_cons_self, hsplit]
      simp [hb, hdot]
    rw [hlead]
    exact List.cons_ne_nil _ _
  · rw [List.filterMap_cons, component]
    by_cases hdots : b :: part = [dot, dot]
    · simp [hdots, dot]
    · simp [hdot, hdots]

/-- A path that ends in a slash is not empty. -/
theorem components_directory_ne_nil (front : Bytes) : components (front ++ [slash]) ≠ [] := by
  cases front with
  | nil => decide
  | cons b front =>
    by_cases hb : b = slash
    · simp [components, lead, hb]
    · exact components_cons_ne_nil hb

/-- A path that ends in the name of a file, behind nothing or behind a slash. -/
structure FilePath where
  directory : Bytes
  name : String
  separated : directory = [] ∨ directory.getLast? = some slash
  isName : IsName (utf8Bytes name)

namespace FilePath

variable (path : FilePath)

def text : Bytes := path.directory ++ utf8Bytes path.name

/-- A path is the directory of its name, and then the name. -/
theorem components_text :
    components path.text = components path.directory ++ [.normal (utf8Bytes path.name)] := by
  rcases path.separated with hnil | hslash
  · rw [text, hnil, List.nil_append, components_name path.isName]
    rfl
  · obtain ⟨front, hfront⟩ := List.getLast?_eq_some_iff.mp hslash
    rw [text, hfront, List.append_assoc]
    exact components_append path.isName

/-- The file name of the path is the name. -/
theorem fileName_text : (fileName path.text).bind toStr = some path.name := by
  simp [fileName, components_text]

/-- The parent of a path is that directory. -/
theorem parent_text : parent path.text = some (components path.directory) := by
  simp [parent, components_text]

/-- The parent is the empty path exactly when there is nothing in front of the name. -/
theorem components_directory_eq_nil : components path.directory = [] ↔ path.directory = [] := by
  constructor
  · intro hnil
    rcases path.separated with hempty | hslash
    · exact hempty
    · obtain ⟨front, hfront⟩ := List.getLast?_eq_some_iff.mp hslash
      rw [hfront] at hnil
      exact absurd hnil (components_directory_ne_nil front)
  · intro hnil
    rw [hnil]
    rfl

end FilePath

end Veriai.PosixPath
