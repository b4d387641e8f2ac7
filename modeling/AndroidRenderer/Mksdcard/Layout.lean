import AndroidRenderer.Mksdcard.Mksdcard

/-!
# The layout of the image

For every size that the program accepts no value leaves its C type, and the image that is left
has the sectors of the disk with the parts of the file system where its own boot sector says. The
size of the allocation tables is a quotient that is rounded up; in each band of disk sizes it
exceeds the sectors of a cluster, and from that a table has an entry for every cluster.
-/

namespace AndroidRenderer.Mksdcard

open LittleEndian

theorem int_eq_ok {value result : Int} :
    int value = .ok result ↔ (-2 ^ 31 ≤ value ∧ value < 2 ^ 31) ∧ value = result := by
  unfold int
  grind

variable {disk_size cluster : Int} {boot info : Sector} {fat rest : Nat}

/-- The sizes that the program accepts. -/
theorem diskSize_range {size : SizeArgument} (h : diskSize size = .ok disk_size) :
    9 * 1024 * 1024 ≤ disk_size ∧ disk_size ≤ MAX_DISK_SIZE := by
  unfold diskSize at h
  grind [Run.bind_eq_ok]

/-! ## The size of the tables -/

/-- The sectors of a table: enough of them for the clusters behind the tables, which leave room
for these. -/
structure FatSize (sectors_per_disk sectors_per_cluster sectors_per_fat : Int) : Prop where
  pos : 0 < sectors_per_fat
  fits : RESERVED_SECTORS + NUM_FATS * sectors_per_fat ≤ sectors_per_disk
  entries : (sectors_per_disk - (RESERVED_SECTORS + NUM_FATS * sectors_per_fat)) /
    sectors_per_cluster + 2 ≤ 128 * sectors_per_fat

theorem quotient_bounds {sectors fat : Int} (hcluster : 0 < cluster)
    (hlarge : RESERVED_SECTORS + cluster * (128 * cluster + 1) < sectors)
    (hfat : (sectors - RESERVED_SECTORS + 128 * cluster) / (128 * cluster + 1) = fat) :
    sectors - RESERVED_SECTORS ≤ 128 * (fat * cluster) + fat ∧
      128 * (fat * cluster) + fat ≤ sectors - RESERVED_SECTORS + 128 * cluster ∧
        cluster < fat := by
  have hdivider : 0 < 128 * cluster + 1 := by omega
  have hproduct : fat * (128 * cluster + 1) = 128 * (fat * cluster) + fat := by grind
  refine ⟨?_, ?_, ?_⟩
  · have hlt := Int.lt_ediv_add_one_mul_self (sectors - RESERVED_SECTORS + 128 * cluster) hdivider
    grind
  · rw [← hproduct, ← hfat]
    exact Int.ediv_mul_le _ (Int.ne_of_gt hdivider)
  · rw [← hfat]
    apply (Int.le_ediv_iff_mul_le hdivider).mpr
    rw [Int.add_mul]
    omega

/-- The rounded quotient, for a number of sectors that exceeds what one cluster's sectors of table
describe. -/
theorem fatSize_of_quotient {sectors : Int} (hcluster : 0 < cluster)
    (hlarge : RESERVED_SECTORS + cluster * (128 * cluster + 1) < sectors) :
    FatSize sectors cluster
      ((sectors - RESERVED_SECTORS + 128 * cluster) / (128 * cluster + 1)) := by
  have hreserved : (RESERVED_SECTORS : Int) = 32 := rfl
  have hfats : (NUM_FATS : Int) = 2 := rfl
  generalize hfat : (sectors - RESERVED_SECTORS + 128 * cluster) / (128 * cluster + 1) = fat
  obtain ⟨hup, hdown, hgt⟩ := quotient_bounds hcluster hlarge hfat
  have hclusters : fat - 1 ≤ fat * cluster - cluster := by
    have hone : (fat - 1) * 1 ≤ (fat - 1) * cluster :=
      Int.mul_le_mul_of_nonneg_left hcluster (by omega)
    rwa [Int.mul_one, Int.sub_mul, Int.one_mul] at hone
  have hboth : NUM_FATS * fat = 2 * fat := by rw [hfats]
  refine ⟨by omega, by omega, ?_⟩
  have hlt : (sectors - (RESERVED_SECTORS + NUM_FATS * fat)) / cluster < 128 * fat - 1 := by
    apply (Int.ediv_lt_iff_lt_mul hcluster).mpr
    grind
  omega

theorem get_sectors_per_cluster_band (hmin : 9 * 1024 * 1024 ≤ disk_size) :
    0 < get_sectors_per_cluster disk_size ∧ get_sectors_per_cluster disk_size ≤ 32 ∧
      RESERVED_SECTORS + get_sectors_per_cluster disk_size *
        (128 * get_sectors_per_cluster disk_size + 1) < disk_size / BYTES_PER_SECTOR := by
  have hreserved : (RESERVED_SECTORS : Int) = 32 := rfl
  have hbytes : (BYTES_PER_SECTOR : Int) = 512 := rfl
  grind [get_sectors_per_cluster]

theorem get_sectors_per_fat_eq (hcluster : 0 < cluster)
    (hroom : RESERVED_SECTORS ≤ disk_size / BYTES_PER_SECTOR) :
    get_sectors_per_fat disk_size cluster =
      int ((disk_size / BYTES_PER_SECTOR - RESERVED_SECTORS + 128 * cluster) /
        (128 * cluster + 1)) := by
  have hreserved : (RESERVED_SECTORS : Int) = 32 := rfl
  have hbytes : (BYTES_PER_SECTOR : Int) = 512 := rfl
  have hfats : (NUM_FATS : Int) = 2 := rfl
  rw [hreserved, hbytes] at hroom ⊢
  have hdivider : (256 * cluster + NUM_FATS).tdiv 2 = 128 * cluster + 1 := by grind
  have hsectors : (disk_size - RESERVED_SECTORS * BYTES_PER_SECTOR).tdiv BYTES_PER_SECTOR =
      disk_size / 512 - 32 := by grind
  unfold get_sectors_per_fat
  dsimp only
  rw [hdivider, hsectors, Int.add_sub_cancel, Int.tdiv_eq_ediv_of_nonneg (by omega)]

theorem get_sectors_per_fat_spec (hmin : 9 * 1024 * 1024 ≤ disk_size)
    (hmax : disk_size ≤ MAX_DISK_SIZE) :
    ∃ sectors_per_fat,
      get_sectors_per_fat disk_size (get_sectors_per_cluster disk_size) = .ok sectors_per_fat ∧
        FatSize (disk_size / BYTES_PER_SECTOR) (get_sectors_per_cluster disk_size)
          sectors_per_fat := by
  have hreserved : (RESERVED_SECTORS : Int) = 32 := rfl
  have hbytes : (BYTES_PER_SECTOR : Int) = 512 := rfl
  have hfats : (NUM_FATS : Int) = 2 := rfl
  have hmaxSize : MAX_DISK_SIZE = 0x7FFFFFFF * 512 := rfl
  obtain ⟨hpos, -, hlarge⟩ := get_sectors_per_cluster_band hmin
  have hsize := fatSize_of_quotient hpos hlarge
  have hroom : RESERVED_SECTORS ≤ disk_size / BYTES_PER_SECTOR := by grind
  rw [get_sectors_per_fat_eq hpos hroom]
  generalize (disk_size / BYTES_PER_SECTOR - RESERVED_SECTORS +
    128 * get_sectors_per_cluster disk_size) / _ = fat at hsize ⊢
  grind [int_eq_ok, hsize.fits, hsize.pos]

/-! ## Fields of the boot sector -/

/-- `v` is read from the `n` bytes at `p`. -/
def Reads (sector : Sector) (p n : Nat) (v : Int) : Prop := (loadLE sector p n : Int) = v

theorem Reads.poke_self {n p : Nat} {v : Int} {sector : Sector} (hv : 0 ≤ v) (hn : v < 256 ^ n)
    (hint : v < 2 ^ 32) : Reads (poke n p v sector) p n v := by
  have hword : v % 2 ^ 32 = v := Int.emod_eq_of_lt hv hint
  have hlt : v.toNat < 256 ^ n := by
    rw [Int.toNat_lt hv]
    exact_mod_cast hn
  have hholds := holds_store sector p (leBytes n v.toNat)
  rw [Reads, poke, hword, hholds.loadLE hlt]
  exact Int.toNat_of_nonneg hv

theorem Reads.store {sector : Sector} {p n p' : Nat} {v : Int} {bytes : List UInt8}
    (hreads : Reads sector p n v) (h : p + n ≤ p' ∨ p' + bytes.length ≤ p) :
    Reads (store sector p' bytes) p n v := by
  rwa [Reads, loadLE_store_of_disjoint h]

/-- A field keeps its value where another is written. -/
theorem Reads.poke {sector : Sector} {p n p' n' : Nat} {v v' : Int} (hreads : Reads sector p n v)
    (h : p + n ≤ p' ∨ p' + n' ≤ p) : Reads (poke n' p' v' sector) p n v :=
  hreads.store (by rwa [leBytes_length])

/-- The fields by which the parts of the file system are found. -/
structure BootFields (boot : Sector) (sectors_per_disk sectors_per_cluster sectors_per_fat : Int) :
    Prop where
  bytes_per_sector : Reads boot 0x0b 2 BYTES_PER_SECTOR
  sectors_per_cluster : Reads boot 0x0d 1 sectors_per_cluster
  reserved_sectors : Reads boot 0x0e 2 RESERVED_SECTORS
  fats : Reads boot 0x10 1 NUM_FATS
  sectors_per_disk : Reads boot 0x20 4 sectors_per_disk
  sectors_per_fat : Reads boot 0x24 4 sectors_per_fat
  fsinfo : Reads boot 0x30 2 1
  backup : Reads boot 0x32 2 BACKUP_BOOT_SECTOR

theorem bootSector_fields {fat disk serial_id : Int} {label : List UInt8}
    (hcluster : 0 < cluster ∧ cluster ≤ 32) (hfat : 0 < fat ∧ fat < 2 ^ 31)
    (hdisk : 0 ≤ disk ∧ disk < 2 ^ 31) :
    BootFields (bootSector cluster fat disk serial_id label boot) disk cluster fat := by
  have hlabel : (label.takeD 11 0).length = 11 := List.takeD_length _ _ _
  -- What is written behind a field leaves it.
  constructor <;>
    repeat first
      | refine Reads.poke ?_ (by decide)
      | refine Reads.store ?_ (by decide)
      | refine Reads.store ?_ (by omega)
  case bytes_per_sector => exact Reads.poke_self (by decide) (by decide) (by decide)
  case sectors_per_cluster => exact Reads.poke_self (by omega) (by omega) (by omega)
  case reserved_sectors => exact Reads.poke_self (by decide) (by decide) (by decide)
  case fats => exact Reads.poke_self (by decide) (by decide) (by decide)
  case sectors_per_disk => exact Reads.poke_self (by omega) (by omega) (by omega)
  case sectors_per_fat => exact Reads.poke_self (by omega) (by omega) (by omega)
  case fsinfo => exact Reads.poke_self (by decide) (by decide) (by decide)
  case backup => exact Reads.poke_self (by decide) (by decide) (by decide)

/-! ## The output -/

/-- The bytes that a call writes. -/
def Write.data : Write → List UInt8
  | .sector s => load s 0 BYTES_PER_SECTOR
  | .empty count => List.replicate (count * BYTES_PER_SECTOR).toNat 0

/-- `data` is written behind what the file has, or some call of `fwrite` does not go through. -/
def Appends (accepts : Nat → Bool) (file : File) (data : List UInt8) (r : Except Exit File) :
    Prop :=
  (∃ calls, r = .ok ⟨file.bytes ++ data, calls⟩) ∨
    r = .error .FailWrite ∧ ∃ call, accepts call = false

theorem fwrite_appends (accepts : Nat → Bool) (file : File) (data : List UInt8) :
    Appends accepts file data (fwrite accepts file data) := by
  unfold fwrite
  split
  · exact .inl ⟨_, rfl⟩
  · rename_i hrefused
    exact .inr ⟨rfl, _, Bool.not_eq_true _ ▸ hrefused⟩

theorem Appends.bind {accepts : Nat → Bool} {file : File} {data data' : List UInt8}
    {r : Except Exit File} {f : File → Except Exit File} (h : Appends accepts file data r)
    (hf : ∀ calls, Appends accepts ⟨file.bytes ++ data, calls⟩ data' (f ⟨file.bytes ++ data, calls⟩)) :
    Appends accepts file (data ++ data') (r >>= f) := by
  obtain ⟨calls, rfl⟩ | ⟨rfl, hrefused⟩ := h
  · have h' := hf calls
    rwa [Appends, List.append_assoc] at h'
  · exact .inr ⟨rfl, hrefused⟩

theorem writeEmptyBytes_appends (accepts : Nat → Bool) (file : File) (count : Int) :
    Appends accepts file (List.replicate count.toNat 0) (writeEmptyBytes accepts file count) := by
  fun_induction writeEmptyBytes accepts file count with
  | case1 file count hpos len ih =>
      have hlen : 0 ≤ len ∧ len ≤ count := by grind
      have hsplit : List.replicate count.toNat (0 : UInt8) =
          List.replicate len.toNat 0 ++ List.replicate (count - len).toNat 0 := by
        rw [List.replicate_append_replicate]
        congr 1
        omega
      rw [hsplit]
      exact (fwrite_appends accepts file _).bind fun calls => ih _
  | case2 file count hdone =>
      have hnone : count.toNat = 0 := Int.toNat_of_nonpos (Int.not_lt.mp hdone)
      rw [hnone, List.replicate_zero]
      exact .inl ⟨file.calls, congrArg _ (by rw [List.append_nil])⟩

theorem Write.run_appends (accepts : Nat → Bool) (file : File) (w : Write) :
    Appends accepts file w.data (w.run accepts file) := by
  cases w with
  | sector s => exact fwrite_appends accepts file _
  | empty count => exact writeEmptyBytes_appends accepts file _

/-- The calls write their bytes one behind the other. -/
theorem writes_append (accepts : Nat → Bool) (file : File) (ws : List Write) :
    Appends accepts file (ws.flatMap Write.data) (ws.foldlM (Write.run accepts) file) := by
  induction ws generalizing file with
  | nil =>
      refine .inl ⟨file.calls, ?_⟩
      rw [List.flatMap_nil, List.append_nil]
      rfl
  | cons w ws ih =>
      rw [List.foldlM_cons, List.flatMap_cons]
      exact (w.run_appends accepts file).bind fun calls => ih _

/-! ## The image -/

/-- The bytes of the image, read like those of a disk. -/
def disk (image : List UInt8) : Mem := ofList image s_zero_sector

/-- The field of the image's boot sector with `n` bytes at `p`. -/
def bootField (image : List UInt8) (p n : Nat) : Nat := loadLE (disk image) p n

/-- The bytes of `n` sectors of the image. -/
def sectors (image : List UInt8) (first n : Nat) : List UInt8 :=
  load (disk image) (first * BYTES_PER_SECTOR) (n * BYTES_PER_SECTOR)

/-- An empty allocation table of `n` sectors. -/
def emptyFat (n : Nat) : List UInt8 :=
  load (fat_init s_zero_sector) 0 BYTES_PER_SECTOR ++
    List.replicate ((n - 1) * BYTES_PER_SECTOR) 0

/-- The first sector behind the tables, by the image's boot sector. -/
def dataSector (image : List UInt8) : Nat :=
  bootField image 0x0e 2 + bootField image 0x10 1 * bootField image 0x24 4

def dataSectors (image : List UInt8) : Nat := bootField image 0x20 4 - dataSector image

/-- The image has the sectors of the disk, and the parts of the file system where its boot sector
says. -/
structure Layout (disk_size : Int) (image : List UInt8) : Prop where
  bytes_per_sector : bootField image 0x0b 2 = BYTES_PER_SECTOR
  sectors_per_disk : (bootField image 0x20 4 : Int) = disk_size / BYTES_PER_SECTOR
  whole : image.length = bootField image 0x20 4 * BYTES_PER_SECTOR
  fsinfo : loadLE (disk image) (bootField image 0x30 2 * BYTES_PER_SECTOR) 4 = 0x41615252
  backup : sectors image (bootField image 0x32 2) 1 = sectors image 0 1
  backup_fsinfo : sectors image (bootField image 0x32 2 + bootField image 0x30 2) 1 =
    sectors image (bootField image 0x30 2) 1
  fats : ∀ k < bootField image 0x10 1,
    sectors image (bootField image 0x0e 2 + k * bootField image 0x24 4) (bootField image 0x24 4) =
      emptyFat (bootField image 0x24 4)
  data_fits : dataSector image ≤ bootField image 0x20 4
  data : sectors image (dataSector image) (dataSectors image) =
    List.replicate (dataSectors image * BYTES_PER_SECTOR) 0
  entries : dataSectors image / bootField image 0x0d 1 + 2 ≤ bootField image 0x24 4 * 128

/-! ## The parts of the image -/

structure Parts (m : Mem) (boot info : Sector) (fat rest : Nat) : Prop where
  boot_sector : Holds m 0 (load boot 0 BYTES_PER_SECTOR)
  fsinfo_sector : Holds m (1 * BYTES_PER_SECTOR) (load info 0 BYTES_PER_SECTOR)
  backup : Holds m (6 * BYTES_PER_SECTOR) (load boot 0 BYTES_PER_SECTOR)
  backup_info : Holds m (7 * BYTES_PER_SECTOR) (load info 0 BYTES_PER_SECTOR)
  fat₁ : Holds m (32 * BYTES_PER_SECTOR) (emptyFat fat)
  fat₂ : Holds m ((32 + fat) * BYTES_PER_SECTOR) (emptyFat fat)
  data : Holds m ((32 + 2 * fat) * BYTES_PER_SECTOR) (List.replicate (rest * BYTES_PER_SECTOR) 0)

theorem emptyFat_length {n : Nat} (hn : 0 < n) : (emptyFat n).length = n * BYTES_PER_SECTOR := by
  obtain ⟨k, rfl⟩ := Nat.exists_eq_add_of_lt hn
  rw [emptyFat, List.length_append, load_length, List.length_replicate, Nat.zero_add,
    Nat.add_sub_cancel, Nat.add_mul, Nat.one_mul, Nat.add_comm]

def imageBytes (boot info : Sector) (fat rest : Nat) : List UInt8 :=
  load boot 0 BYTES_PER_SECTOR ++ (load info 0 BYTES_PER_SECTOR ++
    (List.replicate (4 * BYTES_PER_SECTOR) 0 ++ (load boot 0 BYTES_PER_SECTOR ++
      (load info 0 BYTES_PER_SECTOR ++ (List.replicate (24 * BYTES_PER_SECTOR) 0 ++
        (emptyFat fat ++ (emptyFat fat ++ List.replicate (rest * BYTES_PER_SECTOR) 0)))))))

theorem writes_data (hfat : 0 < fat) :
    (writes boot info (fat_init s_zero_sector) fat rest).flatMap Write.data =
      imageBytes boot info fat rest := by
  have hfatBytes : (((fat : Int) - 1) * BYTES_PER_SECTOR).toNat = (fat - 1) * BYTES_PER_SECTOR := by
    grind
  have hrest : ((rest : Int) * BYTES_PER_SECTOR).toNat = rest * BYTES_PER_SECTOR := by omega
  have hgap : (((BACKUP_BOOT_SECTOR : Int) - 2) * BYTES_PER_SECTOR).toNat =
      4 * BYTES_PER_SECTOR := by decide
  have hreserved : (((RESERVED_SECTORS : Int) - 2 - BACKUP_BOOT_SECTOR) *
      BYTES_PER_SECTOR).toNat = 24 * BYTES_PER_SECTOR := by decide
  have hbackup : 0 < BACKUP_BOOT_SECTOR := by decide
  simp only [writes, if_pos hbackup, List.flatMap_append, List.flatMap_cons, List.flatMap_nil,
    Write.data, hgap, hreserved, hfatBytes, hrest, imageBytes, emptyFat, List.append_assoc,
    List.append_nil]

theorem imageBytes_length (hfat : 0 < fat) :
    (imageBytes boot info fat rest).length = (32 + 2 * fat + rest) * BYTES_PER_SECTOR := by
  simp only [imageBytes, List.length_append, load_length, List.length_replicate,
    emptyFat_length hfat]
  grind

theorem imageBytes_parts {m : Mem} (hfat : 0 < fat)
    (hall : Holds m 0 (imageBytes boot info fat rest)) : Parts m boot info fat rest := by
  simp only [imageBytes, holds_append, load_length, List.length_replicate,
    emptyFat_length hfat] at hall
  obtain ⟨hboot, hinfo, -, hbackup, hbackupInfo, -, hfat₁, hfat₂, hdata⟩ := hall
  have move : ∀ {off off' : Nat} {bs : List UInt8}, Holds m off bs → off = off' →
      Holds m off' bs := fun h heq => heq ▸ h
  constructor
  case boot_sector => exact hboot
  case fsinfo_sector => exact move hinfo (by omega)
  case backup => exact move hbackup (by omega)
  case backup_info => exact move hbackupInfo (by omega)
  case fat₁ => exact move hfat₁ (by omega)
  case fat₂ => exact move hfat₂ (by rw [Nat.add_mul]; omega)
  case data => exact move hdata (by rw [Nat.add_mul, Nat.mul_assoc]; omega)

/-- The fields of the image's boot sector are those of the sector that is written first. -/
theorem Parts.bootField {image : List UInt8} {p n v : Nat}
    (hparts : Parts (disk image) boot info fat rest) (hreads : Reads boot p n v)
    (hin : p + n ≤ BYTES_PER_SECTOR) : bootField image p n = v := by
  have hload := hparts.boot_sector.load_load hin
  rw [Nat.zero_add] at hload
  rw [Mksdcard.bootField, loadLE, hload]
  exact Int.ofNat_inj.mp hreads

theorem sectors_eq {image : List UInt8} {first n : Nat} {bytes : List UInt8}
    (h : Holds (disk image) (first * BYTES_PER_SECTOR) bytes)
    (hlength : bytes.length = n * BYTES_PER_SECTOR) : sectors image first n = bytes :=
  h.load_eq hlength

theorem FatSize.entries_nat {total cluster : Nat} (hsize : FatSize total cluster fat) :
    (total - (32 + 2 * fat)) / cluster + 2 ≤ fat * 128 := by
  have hfits : 32 + 2 * fat ≤ total := by exact_mod_cast hsize.fits
  have hentries := hsize.entries
  have hroom : (total : Int) - (RESERVED_SECTORS + NUM_FATS * fat) =
      ((total - (32 + 2 * fat) : Nat) : Int) := by
    rw [Int.ofNat_sub hfits]
    rfl
  grind

theorem layout_of_parts {cluster total : Nat}
    {image : List UInt8} (htotal : disk_size / BYTES_PER_SECTOR = total)
    (hfields : BootFields boot total cluster fat) (hsize : FatSize total cluster fat)
    (hinfo : loadLE info 0 4 = 0x41615252) (hrest : 32 + 2 * fat + rest = total)
    (hlength : image.length = total * BYTES_PER_SECTOR)
    (hparts : Parts (disk image) boot info fat rest) : Layout disk_size image := by
  have hfat : 0 < fat := by exact_mod_cast hsize.pos
  have hreserved := hparts.bootField (v := RESERVED_SECTORS) hfields.reserved_sectors (by decide)
  have hfats := hparts.bootField (v := NUM_FATS) hfields.fats (by decide)
  have htotalField := hparts.bootField hfields.sectors_per_disk (by decide)
  have hfatField := hparts.bootField hfields.sectors_per_fat (by decide)
  have hclusterField := hparts.bootField hfields.sectors_per_cluster (by decide)
  have hinfoField := hparts.bootField (v := 1) hfields.fsinfo (by decide)
  have hbackupField := hparts.bootField (v := BACKUP_BOOT_SECTOR) hfields.backup (by decide)
  have hdata : dataSector image = 32 + 2 * fat := by
    rw [dataSector, hreserved, hfats, hfatField]
    rfl
  have hdataSectors : dataSectors image = rest := by grind [dataSectors]
  have hone : (load boot 0 BYTES_PER_SECTOR).length = 1 * BYTES_PER_SECTOR := by
    rw [load_length, Nat.one_mul]
  have honeInfo : (load info 0 BYTES_PER_SECTOR).length = 1 * BYTES_PER_SECTOR := by
    rw [load_length, Nat.one_mul]
  constructor
  case bytes_per_sector => exact hparts.bootField hfields.bytes_per_sector (by decide)
  case sectors_per_disk => rw [htotalField, htotal]
  case whole => rw [htotalField, hlength]
  case fsinfo =>
    have hload := hparts.fsinfo_sector.load_load (k := 0) (n := 4) (by decide)
    rw [hinfoField, ← hinfo]
    exact congrArg ofLE hload
  case backup =>
    have hfirst : sectors image 0 1 = load boot 0 BYTES_PER_SECTOR :=
      sectors_eq (by rw [Nat.zero_mul]; exact hparts.boot_sector) hone
    rw [hbackupField, hfirst]
    exact sectors_eq hparts.backup hone
  case backup_fsinfo =>
    rw [hbackupField, hinfoField, sectors_eq hparts.fsinfo_sector honeInfo]
    exact sectors_eq hparts.backup_info honeInfo
  case fats =>
    intro k hk
    rw [hfats] at hk
    rw [hreserved, hfatField]
    have hcases : k = 0 ∨ k = 1 := by
      have : k < 2 := hk
      omega
    obtain rfl | rfl := hcases
    · rw [Nat.zero_mul]
      exact sectors_eq hparts.fat₁ (emptyFat_length hfat)
    · rw [Nat.one_mul]
      exact sectors_eq hparts.fat₂ (emptyFat_length hfat)
  case data_fits =>
    rw [htotalField, hdata]
    omega
  case data =>
    rw [hdata, hdataSectors]
    exact sectors_eq hparts.data List.length_replicate
  grind [hsize.entries_nat]

/-! ## The program -/

theorem fsinfoSector_signature (free_count : Int) (info : Sector) :
    loadLE (fsinfoSector free_count info) 0 4 = 0x41615252 := by
  unfold fsinfoSector
  have hreads : Reads (fsinfoSector free_count info) 0 4 0x41615252 := by
    repeat refine Reads.poke ?_ (by decide)
    exact Reads.poke_self (by decide) (by decide) (by decide)
  exact Int.ofNat_inj.mp hreads

/-- No conversion fails for a size in the range, and the calls are those of a layout. -/
theorem mainWrites_spec (hmin : 9 * 1024 * 1024 ≤ disk_size)
    (hmax : disk_size ≤ MAX_DISK_SIZE) (tm : Tm) :
    ∃ (boot : Sector) (cluster fat total rest : Nat),
      mainWrites disk_size tm = .ok (writes boot (fsinfoSector rest s_zero_sector)
        (fat_init s_zero_sector) fat rest) ∧
      disk_size / BYTES_PER_SECTOR = total ∧ BootFields boot total cluster fat ∧
      FatSize total cluster fat ∧ 32 + 2 * fat + rest = total ∧
      get_sectors_per_cluster disk_size = cluster ∧
      get_sectors_per_fat disk_size cluster = .ok (fat : Int) := by
  have hbytes : (BYTES_PER_SECTOR : Int) = 512 := rfl
  have hreserved : (RESERVED_SECTORS : Int) = 32 := rfl
  have hfats : (NUM_FATS : Int) = 2 := rfl
  have hmaxSize : MAX_DISK_SIZE = 0x7FFFFFFF * 512 := rfl
  obtain ⟨hcluster, hcluster32, -⟩ := get_sectors_per_cluster_band hmin
  obtain ⟨fat, hfatSize, hsize⟩ := get_sectors_per_fat_spec hmin hmax
  have hdiv : disk_size.tdiv BYTES_PER_SECTOR = disk_size / BYTES_PER_SECTOR :=
    Int.tdiv_eq_ediv_of_nonneg (by omega)
  generalize htotal : disk_size / BYTES_PER_SECTOR = total at hsize hdiv
  have hbound : 0 ≤ total ∧ total < 2 ^ 31 := by
    rw [hbytes] at htotal
    omega
  have hfatPos := hsize.pos
  have hfits := hsize.fits
  rw [hreserved, hfats] at hfits
  have hint : ∀ v : Int, -2 ^ 31 ≤ v → v < 2 ^ 31 → int v = .ok v :=
    fun v hlow hhigh => int_eq_ok.mpr ⟨⟨hlow, hhigh⟩, rfl⟩
  obtain ⟨totalNat, rfl⟩ := Int.eq_ofNat_of_zero_le hbound.1
  obtain ⟨fatNat, rfl⟩ := Int.eq_ofNat_of_zero_le (Int.le_of_lt hfatPos)
  obtain ⟨clusterNat, hclusterNat⟩ := Int.eq_ofNat_of_zero_le (Int.le_of_lt hcluster)
  rw [hclusterNat] at hcluster hcluster32 hsize hfatSize
  have hdisk : int (disk_size.tdiv BYTES_PER_SECTOR) = .ok (totalNat : Int) := by
    rw [hdiv]
    exact hint _ (by omega) hbound.2
  have hboot : boot_sector_init s_zero_sector s_zero_sector disk_size none tm =
      .ok (bootSector clusterNat fatNat totalNat (get_serial_id tm) SDCARD s_zero_sector,
        fsinfoSector (totalNat - 32 - 2 * fatNat) s_zero_sector) := by
    unfold boot_sector_init
    rw [hclusterNat]
    exact Run.bind_eq_ok.mpr ⟨_, hfatSize, Run.bind_eq_ok.mpr ⟨_, hdisk,
      Run.bind_eq_ok.mpr ⟨_, hint _ (by omega) (by omega), rfl⟩⟩⟩
  have hrest : int ((totalNat : Int) - RESERVED_SECTORS - 2 * fatNat) =
      .ok ((totalNat - (32 + 2 * fatNat) : Nat) : Int) := by
    rw [hint _ (by omega) (by omega), hreserved]
    exact congrArg _ (by omega)
  have hfree : (totalNat : Int) - 32 - 2 * fatNat = ((totalNat - (32 + 2 * fatNat) : Nat) : Int) := by
    omega
  rw [hfree] at hboot
  refine ⟨bootSector clusterNat fatNat totalNat (get_serial_id tm) SDCARD s_zero_sector,
    clusterNat, fatNat, totalNat, totalNat - (32 + 2 * fatNat), ?_, rfl,
    bootSector_fields ⟨hcluster, hcluster32⟩ ⟨hfatPos, by omega⟩ hbound, hsize, by omega,
    hclusterNat, hfatSize⟩
  unfold mainWrites
  rw [hclusterNat]
  exact Run.bind_eq_ok.mpr ⟨_, hdisk, Run.bind_eq_ok.mpr ⟨_, hfatSize,
    Run.bind_eq_ok.mpr ⟨_, hboot, Run.bind_eq_ok.mpr ⟨_, hint _ (by omega) (by omega),
      Run.bind_eq_ok.mpr ⟨_, hint _ (by omega) (by omega), Run.bind_eq_ok.mpr ⟨_, hrest, rfl⟩⟩⟩⟩⟩⟩

theorem writes_counts {fat_head : Sector} (hfat : 0 < fat)
    {count : Int} (h : .empty count ∈ writes boot info fat_head fat rest) : 0 ≤ count := by
  have hbackup : 0 < BACKUP_BOOT_SECTOR := by decide
  have hgap : 0 ≤ (BACKUP_BOOT_SECTOR : Int) - 2 := by decide
  have hreserved : 0 ≤ (RESERVED_SECTORS : Int) - 2 - BACKUP_BOOT_SECTOR := by decide
  simp only [writes, if_pos hbackup, List.mem_append, List.mem_cons, List.not_mem_nil,
    Write.empty.injEq, reduceCtorEq, false_or, or_false] at h
  omega

/-- What the program does for an accepted size: it writes one image, or a call fails. -/
structure Written (size : SizeArgument) (disk_size : Int) (tm : Tm) (boot : Sector)
    (cluster fat total rest : Nat) : Prop where
  calls : mainWrites disk_size tm =
    .ok (writes boot (fsinfoSector rest s_zero_sector) (fat_init s_zero_sector) fat rest)
  sectors : disk_size / BYTES_PER_SECTOR = total
  fields : BootFields boot total cluster fat
  fatSize : FatSize total cluster fat
  parts : 32 + 2 * fat + rest = total
  cluster_eq : get_sectors_per_cluster disk_size = cluster
  fat_eq : get_sectors_per_fat disk_size cluster = .ok (fat : Int)
  image : ∀ fopen accepts,
    main fopen accepts tm size =
        .ok (imageBytes boot (fsinfoSector rest s_zero_sector) fat rest) ∨
      main fopen accepts tm size = .error .FailWrite ∧
        (fopen = false ∨ ∃ call, accepts call = false)

theorem main_written {size : SizeArgument} (hsize : diskSize size = .ok disk_size)
    (tm : Tm) : ∃ boot cluster fat total rest,
      Written size disk_size tm boot cluster fat total rest := by
  obtain ⟨hmin, hmax⟩ := diskSize_range hsize
  obtain ⟨boot, cluster, fat, total, rest, hwrites, htotal, hfields, hfatSize, hrest, hcluster,
    hfatEq⟩ := mainWrites_spec hmin hmax tm
  have hfat : 0 < fat := by exact_mod_cast hfatSize.pos
  refine ⟨boot, cluster, fat, total, rest, hwrites, htotal, hfields, hfatSize, hrest, hcluster,
    hfatEq, fun fopen accepts => ?_⟩
  have hmain : main fopen accepts tm size =
      if fopen then ((writes boot (fsinfoSector rest s_zero_sector) (fat_init s_zero_sector)
        fat rest).foldlM (Write.run accepts) ⟨[], 0⟩).map File.bytes
      else .error .FailWrite := by
    unfold main
    rw [hsize]
    show (mainWrites disk_size tm >>= _) = _
    rw [hwrites]
    cases fopen <;> rfl
  rw [hmain]
  cases fopen with
  | false => exact .inr ⟨rfl, .inl rfl⟩
  | true =>
      have happends := writes_append accepts ⟨[], 0⟩
        (writes boot (fsinfoSector rest s_zero_sector) (fat_init s_zero_sector) fat rest)
      rw [writes_data hfat, Appends, List.nil_append] at happends
      obtain ⟨calls, hok⟩ | ⟨hfailed, hcall⟩ := happends
      · rw [if_pos rfl, hok]
        exact .inl rfl
      · rw [if_pos rfl, hfailed]
        exact .inr ⟨rfl, .inr hcall⟩

theorem Written.main_eq {size : SizeArgument} {tm : Tm}
    {cluster total : Nat} (h : Written size disk_size tm boot cluster fat total rest) :
    main true (fun _ => true) tm size =
      .ok (imageBytes boot (fsinfoSector rest s_zero_sector) fat rest) := by
  obtain hok | ⟨-, hfailed⟩ := h.image true fun _ => true
  · exact hok
  · simp at hfailed

/-- For each accepted size the program makes no failing conversion and asks for no negative number
of sectors, and the image that is left, if all calls go through, has the layout. -/
theorem main_layout {size : SizeArgument} {disk_size : Int} (hsize : diskSize size = .ok disk_size)
    (tm : Tm) :
    ∃ calls image, mainWrites disk_size tm = .ok calls ∧
      (∀ count, .empty count ∈ calls → 0 ≤ count) ∧ Layout disk_size image ∧
      main true (fun _ => true) tm size = .ok image ∧
      ∀ fopen accepts, main fopen accepts tm size = .ok image ∨
        main fopen accepts tm size = .error .FailWrite := by
  obtain ⟨boot, cluster, fat, total, rest, hwritten⟩ := main_written hsize tm
  have hfat : 0 < fat := by exact_mod_cast hwritten.fatSize.pos
  refine ⟨_, imageBytes boot (fsinfoSector rest s_zero_sector) fat rest, hwritten.calls,
    fun count => writes_counts hfat,
    layout_of_parts hwritten.sectors hwritten.fields hwritten.fatSize
      (fsinfoSector_signature _ _) hwritten.parts ?_
      (imageBytes_parts hfat (holds_ofList _ _)),
    hwritten.main_eq, fun fopen accepts => (hwritten.image fopen accepts).imp_right And.left⟩
  rw [imageBytes_length hfat, hwritten.parts]

/-- A card of the least size, `"9M"`. -/
theorem main_layout_9M :
    ∃ calls image, mainWrites (9 * 1024 * 1024) ⟨0, 0, 0, 1, 0, 107⟩ = .ok calls ∧
      (∀ count, .empty count ∈ calls → 0 ≤ count) ∧ Layout (9 * 1024 * 1024) image ∧
      main true (fun _ => true) ⟨0, 0, 0, 1, 0, 107⟩ ⟨9, 'M', false⟩ = .ok image ∧
      ∀ fopen accepts, main fopen accepts ⟨0, 0, 0, 1, 0, 107⟩ ⟨9, 'M', false⟩ = .ok image ∨
        main fopen accepts ⟨0, 0, 0, 1, 0, 107⟩ ⟨9, 'M', false⟩ = .error .FailWrite :=
  main_layout (by decide) _

end AndroidRenderer.Mksdcard
