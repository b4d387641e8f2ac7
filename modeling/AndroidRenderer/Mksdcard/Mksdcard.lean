import AndroidRenderer.Lib.LittleEndian
import AndroidRenderer.Lib.Run

/-!
# mksdcard

The program writes a blank FAT32 image: the reserved sectors with the boot sector and a backup of
it, two file allocation tables, and the data area. A `Wide` and an `int` are mathematical integers,
and a value that its C type does not hold ends the program; which calls of `fwrite` go through is
a parameter.
-/

namespace AndroidRenderer.Mksdcard

open LittleEndian

def BYTES_PER_SECTOR : Nat := 512
def RESERVED_SECTORS : Nat := 32
def BACKUP_BOOT_SECTOR : Nat := 6
def NUM_FATS : Nat := 2

def MAX_SECTORS_PER_DISK : Int := 0x7FFFFFFF
def MAX_DISK_SIZE : Int := MAX_SECTORS_PER_DISK * BYTES_PER_SECTOR

/-- How the program ends without an image. -/
inductive Exit
  | usage
  | FailWrite
  | overflow
  deriving DecidableEq, Repr

/-- A value of an `int`. -/
def int (value : Int) : Except Exit Int :=
  if -2 ^ 31 ≤ value ∧ value < 2 ^ 31 then .ok value else .error .overflow

/-- A value of a `Wide`. -/
def wide (value : Int) : Except Exit Int :=
  if -2 ^ 63 ≤ value ∧ value < 2 ^ 63 then .ok value else .error .overflow

/-- A static sector of the program, of which `BYTES_PER_SECTOR` bytes are used. -/
abbrev Sector := Mem

def s_zero_sector : Sector := fun _ => 0

/-- The lowest `n` bytes of `v`. -/
def poke (n p : Nat) (v : Int) (sector : Sector) : Sector :=
  store sector p (leBytes n (v % 2 ^ 32).toNat)

def POKEB (p : Nat) (v : Int) : Sector → Sector := poke 1 p v
def POKES (p : Nat) (v : Int) : Sector → Sector := poke 2 p v
def POKEW (p : Nat) (v : Int) : Sector → Sector := poke 4 p v

/-- `strncpy`, which fills up with zeros. -/
def strncpy (p : Nat) (s : List UInt8) (n : Nat) (sector : Sector) : Sector :=
  store sector p (s.takeD n 0)

/-- What `gmtime` says of the time at which the program runs. -/
structure Tm where
  tm_sec : Nat
  tm_min : Nat
  tm_hour : Nat
  tm_mday : Nat
  tm_mon : Nat
  tm_year : Nat

def get_serial_id (tm : Tm) : Int :=
  let lo : Nat := (tm.tm_mday + (tm.tm_mon + 1) * 2 ^ 8 + tm.tm_sec * 2 ^ 8) % 2 ^ 16
  let hi : Nat := (tm.tm_min + tm.tm_hour * 2 ^ 8 + (tm.tm_year + 1900)) % 2 ^ 16
  lo + hi * 2 ^ 16

def get_sectors_per_cluster (disk_size : Int) : Int :=
  let disk_MB := disk_size.tdiv (1024 * 1024)
  if disk_MB < 260 then 1
  else if disk_MB < 8192 then 4
  else if disk_MB < 16384 then 8
  else if disk_MB < 32768 then 16
  else 32

def get_sectors_per_fat (disk_size sectors_per_cluster : Int) : Except Exit Int :=
  let disk_size := disk_size - RESERVED_SECTORS * BYTES_PER_SECTOR
  let disk_size := disk_size.tdiv BYTES_PER_SECTOR
  let divider := (256 * sectors_per_cluster + NUM_FATS).tdiv 2
  int ((disk_size + (divider - 1)).tdiv divider)

/-- `"MSWIN4.1"`, with the zero that `strcpy` writes behind it. -/
def MSWIN : List UInt8 := [0x4d, 0x53, 0x57, 0x49, 0x4e, 0x34, 0x2e, 0x31, 0]

/-- `"SDCARD"` -/
def SDCARD : List UInt8 := [0x53, 0x44, 0x43, 0x41, 0x52, 0x44]

/-- `"FAT32   "` -/
def FAT32 : List UInt8 := [0x46, 0x41, 0x54, 0x33, 0x32, 0x20, 0x20, 0x20]

def bootSector (sectors_per_cluster sectors_per_fat sectors_per_disk serial_id : Int)
    (label : List UInt8) (boot : Sector) : Sector :=
  let boot := boot |> POKEB 0 0xeb |> POKEB 1 0x5a |> POKEB 2 0x90
  let boot := store boot 3 MSWIN
  let boot := boot
    |> POKES 0x0b BYTES_PER_SECTOR
    |> POKEB 0xd sectors_per_cluster
    |> POKES 0xe RESERVED_SECTORS
    |> POKEB 0x10 NUM_FATS
    |> POKES 0x11 0
    |> POKES 0x13 0
    |> POKEB 0x15 0xF8
    |> POKES 0x16 0
    |> POKES 0x18 9
    |> POKES 0x1a 2
    |> POKEW 0x1c 0
    |> POKEW 0x20 sectors_per_disk
  -- The extension of FAT32.
  let boot := boot
    |> POKEW 0x24 sectors_per_fat
    |> POKES 0x28 0
    |> POKES 0x2a 0
    |> POKEW 0x2c 2
    |> POKES 0x30 1
    |> POKES 0x32 BACKUP_BOOT_SECTOR
    |> POKEB 0x40 0x80
    |> POKEB 0x42 0x29
    |> POKEW 0x43 serial_id
    |> strncpy 0x47 label 11
  let boot := store boot 0x52 FAT32
  boot |> POKEB (BYTES_PER_SECTOR - 2) 0x55 |> POKEB (BYTES_PER_SECTOR - 1) 0xAA

def fsinfoSector (free_count : Int) (info : Sector) : Sector :=
  info
    |> POKEW 0 0x41615252
    |> POKEW 484 0x61417272
    |> POKEW 488 free_count
    |> POKEW 492 3
    |> POKEW 508 0xAA550000

def boot_sector_init (boot info : Sector) (disk_size : Int) (label : Option (List UInt8))
    (tm : Tm) : Except Exit (Sector × Sector) := do
  let sectors_per_cluster := get_sectors_per_cluster disk_size
  let sectors_per_fat ← get_sectors_per_fat disk_size sectors_per_cluster
  let sectors_per_disk ← int (disk_size.tdiv BYTES_PER_SECTOR)
  let boot := bootSector sectors_per_cluster sectors_per_fat sectors_per_disk (get_serial_id tm)
    (label.getD SDCARD) boot
  let free_count ← int (sectors_per_disk - 32 - 2 * sectors_per_fat)
  return (boot, fsinfoSector free_count info)

def fat_init (fat : Sector) : Sector :=
  fat |> POKEW 0 0x0ffffff8 |> POKEW 4 0x0fffffff |> POKEW 8 0x0fffffff

/-! ## The output -/

/-- The bytes of the file that is written, and how many calls of `fwrite` wrote them. -/
structure File where
  bytes : List UInt8
  calls : Nat

/-- `fwrite`, of which the calls that `accepts` names go through. -/
def fwrite (accepts : Nat → Bool) (file : File) (data : List UInt8) : Except Exit File :=
  if accepts file.calls then .ok ⟨file.bytes ++ data, file.calls + 1⟩ else .error .FailWrite

def write_sector (accepts : Nat → Bool) (file : File) (sector : Sector) : Except Exit File :=
  fwrite accepts file (load sector 0 BYTES_PER_SECTOR)

/-- The loop of `write_empty`, in bytes. -/
def writeEmptyBytes (accepts : Nat → Bool) (file : File) (count : Int) : Except Exit File :=
  if 0 < count then do
    let len := if count < 256 * 1024 then count else 256 * 1024
    let file ← fwrite accepts file (List.replicate len.toNat 0)
    writeEmptyBytes accepts file (count - len)
  else .ok file
termination_by count.toNat
decreasing_by
  split <;> omega

def write_empty (accepts : Nat → Bool) (file : File) (count : Int) : Except Exit File :=
  writeEmptyBytes accepts file (count * BYTES_PER_SECTOR)

/-- An argument of `write_sector` or of `write_empty`. -/
inductive Write
  | sector (s : Sector)
  | empty (count : Int)

def Write.run (accepts : Nat → Bool) (file : File) : Write → Except Exit File
  | .sector s => write_sector accepts file s
  | .empty count => write_empty accepts file count

/-- The calls that `main` makes, in their order. -/
def writes (boot info fat : Sector) (sectors_per_fat rest : Int) : List Write :=
  [.sector boot, .sector info] ++
  (if 0 < BACKUP_BOOT_SECTOR then
    [.empty (BACKUP_BOOT_SECTOR - 2), .sector boot, .sector info,
      .empty (RESERVED_SECTORS - 2 - BACKUP_BOOT_SECTOR)]
  else [.empty (RESERVED_SECTORS - 2)]) ++
  [.sector fat, .empty (sectors_per_fat - 1), .sector fat, .empty (sectors_per_fat - 1),
    .empty rest]

/-- What `strtoll` makes of the argument for the size: a `Wide`, the character behind it, and
whether `errno` is `EINVAL` or `ERANGE`. -/
structure SizeArgument where
  value : Int
  suffix : Char
  failed : Bool

/-- The number of bytes that the argument names. -/
def scaledSize (size : SizeArgument) : Except Exit Int :=
  if size.suffix = 'K' then wide (size.value * 1024)
  else if size.suffix = 'M' then wide (size.value * (1024 * 1024))
  else if size.suffix = 'G' then wide (size.value * (1024 * 1024 * 1024))
  else .ok size.value

/-- The size that the program accepts. -/
def diskSize (size : SizeArgument) : Except Exit Int :=
  if size.value ≤ 0 ∨ size.failed then .error .usage
  else do
    let disk_size ← scaledSize size
    if disk_size < 9 * 1024 * 1024 then .error .usage
    else if disk_size > MAX_DISK_SIZE then .error .usage
    else .ok disk_size

/-- The calls that `main` makes for a size. -/
def mainWrites (disk_size : Int) (tm : Tm) : Except Exit (List Write) := do
  let sectors_per_disk ← int (disk_size.tdiv BYTES_PER_SECTOR)
  let sectors_per_fat ← get_sectors_per_fat disk_size (get_sectors_per_cluster disk_size)
  let (boot, info) ← boot_sector_init s_zero_sector s_zero_sector disk_size none tm
  let fat := fat_init s_zero_sector
  let fats ← int (2 * sectors_per_fat)
  let reserved ← int (sectors_per_disk - RESERVED_SECTORS)
  let rest ← int (reserved - fats)
  return writes boot info fat sectors_per_fat rest

/-- The image that is left in the file, where the file could be opened as `fopen` says. -/
def main (fopen : Bool) (accepts : Nat → Bool) (tm : Tm) (size : SizeArgument) :
    Except Exit (List UInt8) := do
  let disk_size ← diskSize size
  let writes ← mainWrites disk_size tm
  if fopen then (writes.foldlM (Write.run accepts) ⟨[], 0⟩).map File.bytes
  else .error .FailWrite

end AndroidRenderer.Mksdcard
