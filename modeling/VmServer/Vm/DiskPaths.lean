import VmServer.Library.Paths
import VmServer.Vm.CommandLine

/-!
# Which file a configured path denotes

The server looks at the disk and at the media from its own working directory,
and so does `qemu-img`. QEMU opens what it reads from the `-drive` options, and
from the directory its binary lies in, which `launch` gives it to find its
firmware.

## Implementation notes

QEMU takes a name with a colon in front of all separators for a protocol and
what belongs to it; a drive letter is none. What is opened for such a name is
not a matter of this repository. A relative path of a binary is looked up from
the directory of the child process. Creating a disk goes as far as the file that
`qemu-img` writes.
-/

namespace VmServer.Vm

open Paths

/-- The name that QEMU takes from a drive, which is the last that is given. -/
def Flag.file (f : Flag) : Option (List Char) :=
  (f.options.reverse.find? (·.1 = "file".toList)).map fun o => o.2.getD "on".toList

/-- A letter and a colon. -/
def drivePrefix : List Char → Bool
  | c :: ':' :: _ => c.isAlpha
  | _ => false

/-- `path_has_protocol` of QEMU -/
def hasProtocol (windows : Bool) (name : List Char) : Bool :=
  !(windows && drivePrefix name) &&
    name.find? (fun c => c = ':' || isSeparator windows c) = some ':'

/-- The machine the server runs on. -/
structure Machine where
  windows : Bool
  /-- The working directory of the server. -/
  cwd : Location
  /-- The current directories of the other volumes. -/
  elsewhere : String → List String
  baseDir : String
  /-- `os.Stat` finds something. -/
  found : Location → Bool
  isDir : Location → Bool
  /-- `exec.LookPath` -/
  lookPath : String → Option FilePath
  /-- The file that QEMU opens for a name with a protocol, if it is one of this machine. -/
  protocolFile : List Char → Option FilePath

namespace Machine

variable (h : Machine) (cfg : Config.VM)

/-- What a path denotes for the server. -/
def stat (path : FilePath) : Location := resolve h.elsewhere h.cwd path

def isFile (path : FilePath) : Bool := h.found (h.stat path) && !h.isDir (h.stat path)

def base : FilePath := parse h.windows h.baseDir

def candidates (name : String) : List FilePath :=
  (if cfg.qemuDir ≠ "" then [(parse h.windows cfg.qemuDir).join [name]] else []) ++
    [h.base.join ["third_party", "qemu", name], h.base.join ["qemu", name]]

/-- The directories that are tried on Windows after all others. -/
def programFiles (name : String) : List FilePath :=
  ["C:\\Program Files\\qemu\\" ++ name, "C:\\Program Files (x86)\\qemu\\" ++ name].map (parse true)

def qemuBinary (name : String) : Except String FilePath :=
  let name := if h.windows then name ++ ".exe" else name
  let installed := if h.windows then (programFiles name).find? (h.found <| h.stat ·) else none
  match (h.candidates cfg name).find? h.isFile <|> h.lookPath name <|> installed with
  | some path => .ok path
  | none =>
      .error (name ++ " not found: set vm.qemu_dir in config.yaml or place QEMU in " ++
        (h.base.join ["third_party", "qemu"]).text h.windows)

/-- The directory that `launch` gives to a process of the binary. -/
def childDir (bin : FilePath) : Location := h.stat bin.dir

/-- `cmd.Start` finds the binary from the directory of the child. -/
def launches (bin : FilePath) : Bool := h.found (resolve h.elsewhere (h.childDir bin) bin)

/-- What `Status`, `Start` and `apiSetup` look at. -/
def checked (path : String) : Location := h.stat (parse h.windows path)

/-- The file that a name is for QEMU and its tools. -/
def fileOf (name : List Char) : Option FilePath :=
  if hasProtocol h.windows name then h.protocolFile name
  else some (parse h.windows (String.ofList name))

/-- What `qemu-img`, which inherits the directory of the server, creates. -/
def created (path : String) : Option Location :=
  (h.fileOf path.toList).map (resolve h.elsewhere h.cwd)

/-- What QEMU opens for a drive. -/
def opened (bin : FilePath) (drive : Flag) : Option Location :=
  (drive.file.bind h.fileOf).map (resolve h.elsewhere (h.childDir bin))

/-- The binary is found and started. -/
structure Runs (bin : FilePath) : Prop where
  found : h.qemuBinary cfg "qemu-system-x86_64" = .ok bin
  launches : h.launches bin = true

/-- The disk that is created is the one that is looked at, and what a launched QEMU opens for its
drives is, one by one, what was looked at. -/
def SameFiles : Prop :=
  h.created cfg.diskPath = some (h.checked cfg.diskPath) ∧
    ∀ bin, h.Runs cfg bin → ∀ goos accel,
      (drives goos cfg accel).map (h.opened bin) =
        (attachments cfg).map fun a => some (h.checked a.1)

/-- A name that QEMU reads from an option as it is, and takes for that of a file. -/
structure Plain (path : String) : Prop where
  noComma : ',' ∉ path.toList
  noProtocol : hasProtocol h.windows path.toList = false

/-- From the server's directory and from that of QEMU the path climbs to the same place. -/
def ClimbsAlike (bin path : FilePath) : Prop :=
  climb (start h.elsewhere (h.childDir bin) path) path.ups =
    climb (start h.elsewhere h.cwd path) path.ups

/-- Another path leads from the directory to where the path leads from that of the server: to the
same volume, and by the same names from its root on. -/
def Coincides (other : Option FilePath) (d : Location) (path : FilePath) : Prop :=
  ∃ q, other = some q ∧
    (start h.elsewhere d q).volume = (start h.elsewhere h.cwd path).volume ∧
    (climb (start h.elsewhere d q) q.ups).names ++ q.names =
      (climb (start h.elsewhere h.cwd path) path.ups).names ++ path.names

/-- What is opened for a path that is not plain is the same file by coincidence only. -/
def SamePlace (bin : FilePath) (path options : String) : Prop :=
  (h.Plain path ∧ h.ClimbsAlike bin (parse h.windows path)) ∨
    (¬ h.Plain path ∧
      h.Coincides ((driveFlag path options).file.bind h.fileOf) (h.childDir bin)
        (parse h.windows path))

def SamePlaces : Prop :=
  (hasProtocol h.windows cfg.diskPath.toList = true →
      h.Coincides (h.protocolFile cfg.diskPath.toList) h.cwd (parse h.windows cfg.diskPath)) ∧
    ∀ bin, h.Runs cfg bin → ∀ a ∈ attachments cfg, h.SamePlace bin a.1 a.2

end Machine

/-- The path starts at a root that does not depend on a working directory. -/
def Machine.Absolute (h : Machine) (cfg : Config.VM) (path : String) : Prop :=
  (parse h.windows path).rooted = true ∧
    ((parse h.windows path).volume.isSome = true ∨
      ∀ bin, h.qemuBinary cfg "qemu-system-x86_64" = .ok bin →
        (h.childDir bin).volume = h.cwd.volume)

namespace Machine

variable {h : Machine} {cfg : Config.VM}

theorem coincides_iff {other : Option FilePath} {d : Location} {path : FilePath} :
    h.Coincides other d path ↔
      other.map (resolve h.elsewhere d) = some (resolve h.elsewhere h.cwd path) := by
  rw [Option.map_eq_some_iff]
  refine exists_congr fun q => and_congr_right fun _ => ?_
  rw [resolve_eq, resolve_eq, Location.mk.injEq]
  rfl

theorem fileOf_of_plain {path : String} (noProtocol : hasProtocol h.windows path.toList = false) :
    h.fileOf path.toList = some (parse h.windows path) := by
  rw [fileOf, if_neg (by simp [noProtocol]), String.ofList_toList]

theorem created_iff : h.created cfg.diskPath = some (h.checked cfg.diskPath) ↔
    (hasProtocol h.windows cfg.diskPath.toList = true →
      h.Coincides (h.protocolFile cfg.diskPath.toList) h.cwd (parse h.windows cfg.diskPath)) := by
  unfold created
  cases protocol : hasProtocol h.windows cfg.diskPath.toList with
  | false =>
      rw [fileOf_of_plain protocol]
      exact iff_of_true rfl nofun
  | true =>
      rw [fileOf, if_pos protocol, coincides_iff]
      exact ⟨fun same _ => same, fun same => same rfl⟩

theorem options_of_attached {a : String × String} (attached : a ∈ attachments cfg) :
    a.2 ∈ [virtioOptions, sataOptions, cdromOptions] := by
  rcases List.mem_cons.mp attached with rfl | medium
  · dsimp only
    split <;> simp
  · obtain ⟨path, -, rfl⟩ := List.mem_map.mp medium
    simp

/-- None of the options that follow a path names a file. -/
theorem continues_of_mem {options : String}
    (own : options ∈ [virtioOptions, sataOptions, cdromOptions]) :
    OptionSyntax.Continues options.toList ∧
      ∀ o ∈ OptionSyntax.parse options.toList, o.1 ≠ "file".toList := by
  obtain rfl | rfl | rfl : options = virtioOptions ∨ options = sataOptions ∨
    options = cdromOptions := by simpa using own
  · exact ⟨⟨by decide, 'o', by decide, by decide⟩, by decide⟩
  · exact ⟨⟨by decide, 'e', by decide, by decide⟩, by decide⟩
  · exact ⟨continues_cdromOptions, by decide⟩

/-- QEMU reads a name without a comma back from the option of its drive. -/
theorem file_of_attached {a : String × String} (attached : a ∈ attachments cfg)
    (noComma : ',' ∉ a.1.toList) : (driveFlag a.1 a.2).file = some a.1.toList := by
  obtain ⟨continues, others⟩ := continues_of_mem (options_of_attached attached)
  have none : (OptionSyntax.parse a.2.toList).reverse.find? (·.1 = "file".toList) = none := by
    rw [List.find?_eq_none]
    exact fun o mem => by simpa using others o (List.mem_reverse.mp mem)
  rw [Flag.file, (options_driveFlag_iff rfl continues).mpr noComma, List.reverse_cons,
    List.find?_append, none]
  rfl

theorem opened_iff {bin : FilePath} {a : String × String} (attached : a ∈ attachments cfg) :
    h.opened bin (driveFlag a.1 a.2) = some (h.checked a.1) ↔ h.SamePlace bin a.1 a.2 := by
  unfold SamePlace
  by_cases plain : h.Plain a.1
  · have read : h.opened bin (driveFlag a.1 a.2) =
        some (resolve h.elsewhere (h.childDir bin) (parse h.windows a.1)) := by
      rw [opened, file_of_attached attached plain.noComma, Option.bind_some,
        fileOf_of_plain plain.noProtocol, Option.map_some]
    rw [read, Option.some.injEq]
    simp only [plain, not_true, false_and, or_false, true_and]
    exact resolve_eq_iff
  · simp only [plain, false_and, false_or, not_false_eq_true, true_and]
    exact coincides_iff.symm

theorem sameFiles_iff : h.SameFiles cfg ↔ h.SamePlaces cfg := by
  refine and_congr created_iff (forall₂_congr fun bin _ => ?_)
  constructor
  · intro same a attached
    have pairs := same "" ""
    rw [drives_eq, List.map_map, List.map_inj_left] at pairs
    exact (opened_iff attached).mp (pairs a attached)
  · intro places goos accel
    rw [drives_eq, List.map_map, List.map_inj_left]
    exact fun a attached => (opened_iff attached).mpr (places a attached)

end Machine

/-- A server that was started in its own directory, with QEMU on the search path. -/
def packaged : Machine where
  windows := false
  cwd := ⟨"", ["opt", "vmserver"]⟩
  elsewhere := fun _ => []
  baseDir := "/opt/vmserver"
  found := fun l => l.names = ["usr", "bin", "qemu-system-x86_64"]
  isDir := fun _ => false
  lookPath := fun name => some ⟨none, true, ["usr", "bin", name]⟩
  protocolFile := fun _ => none

end VmServer.Vm
