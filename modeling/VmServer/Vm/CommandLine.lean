import VmServer.Config.Sections
import VmServer.Library.OptionSyntax

/-!
# The command line of QEMU

`Args` puts the paths of the disk and of the two media into the `-drive`
options as they are. QEMU reads a comma in such a path as the end of the path
and what follows as options, so a drive is the configured one exactly as long
as its path has no comma.

## Implementation notes

The command line is a list of flags with their values; `args` is what the
process gets. `extra_args` stand behind the flags that `Args` writes.
-/

namespace VmServer.Vm

open OptionSyntax

/-- A flag of QEMU with its value, if it has one. -/
structure Flag where
  name : String
  value : Option String
  deriving DecidableEq, Repr

def Flag.texts (f : Flag) : List String := f.name :: f.value.toList

variable (goos : String) (cfg : Config.VM) (accel : String)

def accelArg : String :=
  if accel = "whpx" then "whpx,kernel-irqchip=off"
  else if accel = "tcg" then "tcg,thread=multi"
  else accel

/-- The CPU model; on Windows hosts `args[5]` is replaced by the Hyper-V enlightenments. -/
def cpuArg : String :=
  if goos = "windows" ∧ accel = "whpx" then
    "host,hv_relaxed,hv_spinlocks=0x1fff,hv_vapic,hv_time"
  else if accel = "tcg" then "max"
  else "host"

def machineFlags : List Flag :=
  [⟨"-accel", accelArg accel⟩, ⟨"-machine", "q35"⟩, ⟨"-cpu", cpuArg goos accel⟩,
   ⟨"-m", toString cfg.ramMB⟩, ⟨"-smp", toString cfg.cpus⟩,
   ⟨"-rtc", "base=localtime,clock=host"⟩, ⟨"-display", "none"⟩, ⟨"-vga", "std"⟩,
   ⟨"-usb", none⟩, ⟨"-device", "usb-tablet"⟩, ⟨"-device", "e1000,netdev=n0"⟩,
   ⟨"-netdev", "user,id=n0"⟩,
   ⟨"-vnc", "127.0.0.1:" ++ toString (cfg.vncPort - 5900) ++ ",password=on"⟩,
   ⟨"-qmp", "tcp:127.0.0.1:" ++ toString cfg.qmpPort ++ ",server=on,wait=off"⟩,
   ⟨"-name", "vmserver-guest"⟩]

/-- `ClipboardEnabled`, which is the default. -/
def clipboardEnabled : Bool := cfg.clipboardSync.getD true

def clipboardFlags : List Flag :=
  if clipboardEnabled cfg then
    [⟨"-chardev", "qemu-vdagent,id=vdagent,name=vdagent,clipboard=on"⟩,
     ⟨"-device", "virtio-serial-pci"⟩,
     ⟨"-device", "virtserialport,chardev=vdagent,name=com.redhat.spice.0"⟩]
  else []

/-- A drive with the path as it is and the options that follow. -/
def driveFlag (path options : String) : Flag := ⟨"-drive", "file=" ++ path ++ "," ++ options⟩

def virtioOptions : String := "if=virtio,format=qcow2,cache=writeback,discard=unmap"
def sataOptions : String := "if=none,id=disk0,format=qcow2,cache=writeback,discard=unmap"
def cdromOptions : String := "media=cdrom,readonly=on"

def diskFlags : List Flag :=
  if cfg.diskInterface = "virtio" then [driveFlag cfg.diskPath virtioOptions]
  else
    [⟨"-device", "ahci,id=ahci0"⟩, driveFlag cfg.diskPath sataOptions,
     ⟨"-device", "ide-hd,drive=disk0,bus=ahci0.0"⟩]

/-- A medium, if its path is set. -/
def cdromFlags (path : String) : List Flag :=
  if path ≠ "" then [driveFlag path cdromOptions] else []

def bootOrder : String := if cfg.isoPath ≠ "" then "dc" else "c"

/-- The flags that `Args` writes itself. -/
def flags : List Flag :=
  machineFlags goos cfg accel ++ clipboardFlags cfg ++ diskFlags cfg ++ cdromFlags cfg.isoPath ++
    cdromFlags cfg.virtioISOPath ++ [⟨"-boot", "order=" ++ bootOrder cfg ++ ",menu=on"⟩]

/-- `Args` -/
def args : List String := (flags goos cfg accel).flatMap Flag.texts ++ cfg.extraArgs

/-! ## What QEMU makes of the drives -/

def drives : List Flag := (flags goos cfg accel).filter (·.name = "-drive")

/-- The options of a flag. -/
def Flag.options (f : Flag) : List Field := parse (f.value.getD "").toList

/-- A field with its value. -/
def field (key value : String) : Field := (key.toList, some value.toList)

/-- The options that `Args` writes for the disk. -/
def diskFields : List Field :=
  if cfg.diskInterface = "virtio" then
    [field "if" "virtio", field "format" "qcow2", field "cache" "writeback",
     field "discard" "unmap"]
  else
    [field "if" "none", field "id" "disk0", field "format" "qcow2", field "cache" "writeback",
     field "discard" "unmap"]

def cdromFields : List Field := [field "media" "cdrom", field "readonly" "on"]

/-- The drives of the configuration: the file of each is its path, and the other options are
those that `Args` writes. -/
def configuredDrives : List (List Field) :=
  (field "file" cfg.diskPath :: diskFields cfg) ::
    ([cfg.isoPath, cfg.virtioISOPath].filter (· ≠ "")).map fun path =>
      field "file" path :: cdromFields

/-- The paths that are attached, with the options of their drives. -/
def attachments : List (String × String) :=
  (cfg.diskPath, if cfg.diskInterface = "virtio" then virtioOptions else sataOptions) ::
    ([cfg.isoPath, cfg.virtioISOPath].filter (· ≠ "")).map (·, cdromOptions)

/-- QEMU gets the configured drives and nothing else. -/
def DrivesDecode : Prop := (drives goos cfg accel).map Flag.options = configuredDrives cfg

variable {goos cfg accel}

theorem filter_cdromFlags (path : String) :
    (cdromFlags path).filter (·.name = "-drive") =
      ([path].filter (· ≠ "")).map (driveFlag · cdromOptions) := by
  unfold cdromFlags
  split
  · rename_i set
    simp [driveFlag, set]
  · rename_i unset
    simp [not_not.mp unset]

/-- Each drive stands on the command line with its options right behind the flag. -/
theorem texts_infix_args {f : Flag} (drive : f ∈ drives goos cfg accel) :
    f.texts <:+: args goos cfg accel := by
  obtain ⟨before, after, whole⟩ := List.append_of_mem (List.mem_filter.mp drive).1
  refine ⟨before.flatMap Flag.texts, after.flatMap Flag.texts ++ cfg.extraArgs, ?_⟩
  rw [args, whole, List.flatMap_append, List.flatMap_cons]
  simp only [List.append_assoc]

/-- The drives are the disk and the media that are set. -/
theorem drives_eq :
    drives goos cfg accel = (attachments cfg).map fun a => driveFlag a.1 a.2 := by
  have machine : (machineFlags goos cfg accel).filter (·.name = "-drive") = [] := by
    simp [machineFlags]
  have clipboard : (clipboardFlags cfg).filter (·.name = "-drive") = [] := by
    unfold clipboardFlags
    split <;> simp
  have disk : (diskFlags cfg).filter (·.name = "-drive") =
      [driveFlag cfg.diskPath
        (if cfg.diskInterface = "virtio" then virtioOptions else sataOptions)] := by
    unfold diskFlags
    split <;> simp [driveFlag]
  rw [drives, flags]
  simp only [List.filter_append, machine, clipboard, disk, filter_cdromFlags]
  rw [attachments, List.map_cons, List.map_map,
    ← List.singleton_append (l := [cfg.virtioISOPath]), List.filter_append, List.map_append]
  simp [Function.comp_def]

theorem options_driveFlag (path options : String) : (driveFlag path options).options =
    parse ("file".toList ++ '=' :: (path.toList ++ ',' :: options.toList)) := by
  simp [Flag.options, driveFlag, String.toList_append]

/-- A drive is the configured one exactly when its path has no comma. -/
theorem options_driveFlag_iff {path options : String} {fields : List Field}
    (own : parse options.toList = fields) (continues : Continues options.toList) :
    (driveFlag path options).options = field "file" path :: fields ↔ ',' ∉ path.toList := by
  have plain : ∀ c ∈ "file".toList, c ≠ '=' ∧ c ≠ ',' := by simp
  rw [options_driveFlag, ← own]
  exact parse_field_iff plain continues path.toList

theorem continues_cdromOptions : Continues cdromOptions.toList :=
  ⟨by decide, 'm', by decide, by decide⟩

theorem disk_decodes_iff :
    (driveFlag cfg.diskPath
        (if cfg.diskInterface = "virtio" then virtioOptions else sataOptions)).options =
      field "file" cfg.diskPath :: diskFields cfg ↔ ',' ∉ cfg.diskPath.toList := by
  unfold diskFields
  split
  · exact options_driveFlag_iff (by decide) ⟨by decide, 'o', by decide, by decide⟩
  · exact options_driveFlag_iff (by decide) ⟨by decide, 'e', by decide, by decide⟩

/-- For every configuration, whatever its paths are, the drives stand on the command line with
their options, and what QEMU gets of them is what is configured exactly when no path that is used
has a comma. -/
theorem drives_decode_iff (goos : String) (cfg : Config.VM) (accel : String) :
    (∀ f ∈ drives goos cfg accel, f.texts <:+: args goos cfg accel) ∧
      (DrivesDecode goos cfg accel ↔
        ∀ path ∈ [cfg.diskPath, cfg.isoPath, cfg.virtioISOPath], ',' ∉ path.toList) := by
  refine ⟨fun f drive => texts_infix_args drive, ?_⟩
  have media (path : String) : (driveFlag path cdromOptions).options =
      field "file" path :: cdromFields ↔ ',' ∉ path.toList :=
    options_driveFlag_iff (by decide) continues_cdromOptions
  have unset {path : String} (comma : ',' ∈ path.toList) : path ≠ "" := by
    rintro rfl
    cases comma
  rw [DrivesDecode, drives_eq, attachments, configuredDrives, List.map_cons, List.map_cons,
    List.map_map, List.map_map, List.cons.injEq, disk_decodes_iff, List.map_inj_left,
    List.forall_mem_cons]
  refine and_congr_right fun _ => ?_
  simp only [Function.comp_apply, media, List.mem_filter, decide_eq_true_eq]
  exact forall_congr' fun path => ⟨fun h mem comma => h ⟨mem, unset comma⟩ comma,
    fun h mem => h mem.1⟩

/-- A valid configuration whose installation medium is called `win10.iso,readonly=off`. -/
def renamedMedium : Config.VM :=
  { (Config.default "data" "vm/win10.qcow2").vm with isoPath := "win10.iso,readonly=off" }

/-- The drive has another file, and an option more. -/
theorem comma_adds_option : Config.validateVM renamedMedium = .ok renamedMedium ∧
    ¬ DrivesDecode "windows" renamedMedium "whpx" := by
  refine ⟨by decide, fun decodes => ?_⟩
  have other : ((drives "windows" renamedMedium "whpx").map Flag.options)[1]? =
      some (field "file" "win10.iso" :: field "readonly" "off" :: cdromFields) := by decide
  rw [decodes] at other
  exact absurd other (by decide)

end VmServer.Vm
