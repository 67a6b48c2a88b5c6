import Mathlib.Data.List.Basic

/-!
# File paths and the places they lead to

A path is walked element by element from the root of its volume or from a
directory. What it does to a directory is to go up by its leading `..` and
then down by the names that are left; so two directories are told apart by a
path only in as far as they differ above the place it climbs to.

## Implementation notes

Paths are those of `filepath` on Unix and on Windows. They are resolved
lexically: a place is known by its names, and there are no links. A path such
as `C:vm` starts in the directory that is current on that volume, which for
another volume than that of the directory is given from outside.
-/

namespace Paths

/-- A volume, which is empty on Unix, and the names from its root on. -/
structure Location where
  volume : String
  names : List String
  deriving DecidableEq, Repr

structure FilePath where
  volume : Option String
  rooted : Bool
  elements : List String
  deriving DecidableEq, Repr

/-! ## Reading and writing a path -/

section Text

variable (windows : Bool)

def isSeparator (c : Char) : Bool := c = '/' || (windows && c = '\\')

def elements (cs : List Char) : List String :=
  (cs.splitOnP (isSeparator windows)).map String.ofList

/-- A path without a volume. -/
def plain (cs : List Char) : FilePath where
  volume := none
  rooted := cs.head?.any (isSeparator windows)
  elements := elements windows cs

/-- A network path has its host and share for a volume. -/
def network (cs : List Char) : FilePath :=
  match elements windows cs with
  | "" :: "" :: host :: share :: rest =>
      if host ≠ "" ∧ share ≠ "" then ⟨"\\\\" ++ host ++ "\\" ++ share, true, rest⟩
      else plain windows cs
  | _ => plain windows cs

def parse (text : String) : FilePath :=
  if !windows then plain windows text.toList
  else
    match text.toList with
    | c :: ':' :: rest =>
        if c.isAlpha then { plain windows rest with volume := String.ofList [c.toUpper, ':'] }
        else plain windows (c :: ':' :: rest)
    | cs => network windows cs

end Text

/-! ## Walking a path -/

def step (names : List String) (element : String) : List String :=
  if element = "" ∨ element = "." then names
  else if element = ".." then names.dropLast
  else names ++ [element]

/-- An element behind some leading `..` and the names left so far. -/
def cleanStep (c : Nat × List String) (element : String) : Nat × List String :=
  if element = "" ∨ element = "." then c
  else if element = ".." then if c.2 = [] then (c.1 + 1, []) else (c.1, c.2.dropLast)
  else (c.1, c.2 ++ [element])

namespace FilePath

variable (p : FilePath)

def cleaned : Nat × List String := p.elements.foldl cleanStep (0, [])

/-- The number of leading `..`. -/
def ups : Nat := p.cleaned.1

def names : List String := p.cleaned.2

/-- `filepath.Join` with more elements. -/
def join (more : List String) : FilePath := { p with elements := p.elements ++ more }

/-- `filepath.Dir` -/
def dir : FilePath := { p with elements := p.elements.dropLast }

/-- The text of the clean path. -/
def text (windows : Bool) : String :=
  let separator := if windows then "\\" else "/"
  let names := (if p.rooted then [] else List.replicate p.ups "..") ++ p.names
  let path := separator.intercalate names
  p.volume.getD "" ++ if p.rooted then separator ++ path else if path = "" then "." else path

end FilePath

variable (elsewhere : String → List String)

/-- Where a path starts for a process in the directory. -/
def start (d : Location) (p : FilePath) : Location :=
  if p.rooted then ⟨p.volume.getD d.volume, []⟩
  else
    match p.volume with
    | none => d
    | some v => if v = d.volume then d else ⟨v, elsewhere v⟩

/-- What a path denotes for a process in the directory. -/
def resolve (d : Location) (p : FilePath) : Location :=
  ⟨(start elsewhere d p).volume, p.elements.foldl step (start elsewhere d p).names⟩

/-- The place so many levels above, or the root. -/
def climb (d : Location) (k : Nat) : Location := ⟨d.volume, d.names.take (d.names.length - k)⟩

/-- The names gone up and down, element by element. -/
theorem foldl_step (names : List String) (elements : List String) (k : Nat) (m : List String) :
    elements.foldl step (names.take (names.length - k) ++ m) =
      names.take (names.length - (elements.foldl cleanStep (k, m)).1) ++
        (elements.foldl cleanStep (k, m)).2 := by
  induction elements generalizing k m with
  | nil => rfl
  | cons e rest ih =>
      rw [List.foldl_cons, List.foldl_cons, ← ih]
      congr 1
      unfold step cleanStep
      split
      · rfl
      · split
        · split
          · rename_i none
            dsimp only at none
            subst none
            rw [List.append_nil, List.append_nil, List.dropLast_eq_take, List.take_take,
              List.length_take]
            congr 1
            omega
          · rename_i some
            exact List.dropLast_append_of_ne_nil some
        · exact List.append_assoc _ _ _

variable {elsewhere} {d d' : Location} {p : FilePath}

/-- A path climbs and then goes down. -/
theorem resolve_eq : resolve elsewhere d p =
    ⟨(climb (start elsewhere d p) p.ups).volume,
      (climb (start elsewhere d p) p.ups).names ++ p.names⟩ := by
  have walked := foldl_step (start elsewhere d p).names p.elements 0 []
  rw [Nat.sub_zero, List.take_length, List.append_nil] at walked
  exact congrArg (Location.mk _) walked

/-- A path denotes the same for two directories exactly when it climbs to the same place. -/
theorem resolve_eq_iff : resolve elsewhere d p = resolve elsewhere d' p ↔
    climb (start elsewhere d p) p.ups = climb (start elsewhere d' p) p.ups := by
  rw [resolve_eq, resolve_eq, climb, climb, Location.mk.injEq, Location.mk.injEq,
    List.append_left_inj]

/-- An absolute path starts at its own root. -/
theorem start_of_absolute (rooted : p.rooted = true)
    (volume : p.volume.isSome ∨ d.volume = d'.volume) :
    start elsewhere d p = start elsewhere d' p := by
  rw [start, start, if_pos rooted, if_pos rooted]
  obtain some | same := volume
  · obtain ⟨v, found⟩ := Option.isSome_iff_exists.mp some
    rw [found]
    rfl
  · rw [same]

end Paths
