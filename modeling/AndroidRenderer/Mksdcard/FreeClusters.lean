import AndroidRenderer.Mksdcard.Layout

/-!
# The free clusters

A data cluster is free if its entry in the first allocation table of the image is zero: every
cluster but that of the root directory. The FSInfo sector stores the sectors of the data area as
the number of free clusters, which is too much for every disk.
-/

namespace AndroidRenderer.Mksdcard

open LittleEndian

def fatEntry (image : List UInt8) (cluster : Nat) : Nat :=
  loadLE (disk image) (bootField image 0x0e 2 * BYTES_PER_SECTOR + 4 * cluster) 4

/-- The clusters of the data area, by the image's boot sector; the first one has the number 2. -/
def dataClusters (image : List UInt8) : List Nat :=
  List.range' 2 (dataSectors image / bootField image 0x0d 1)

def freeClusters (image : List UInt8) : List Nat :=
  (dataClusters image).filter fun cluster => fatEntry image cluster = 0

/-- A word of the image's FSInfo sector. -/
def infoField (image : List UInt8) (p : Nat) : Nat :=
  loadLE (disk image) (bootField image 0x30 2 * BYTES_PER_SECTOR + p) 4

/-- The FSInfo sector stores the number of free clusters, and names one of them. -/
def FreeCountRight (image : List UInt8) : Prop :=
  infoField image 488 = (freeClusters image).length ∧ infoField image 492 ∈ freeClusters image

/-! ## Fields -/

theorem fsinfoSector_free_count {free_count : Int} (info : Sector) (hpos : 0 ≤ free_count)
    (hlt : free_count < 2 ^ 32) : Reads (fsinfoSector free_count info) 488 4 free_count := by
  unfold fsinfoSector
  refine Reads.poke (Reads.poke ?_ (by decide)) (by decide)
  exact Reads.poke_self hpos (by omega) hlt

theorem fsinfoSector_next_free (free_count : Int) (info : Sector) :
    Reads (fsinfoSector free_count info) 492 4 3 := by
  unfold fsinfoSector
  refine Reads.poke ?_ (by decide)
  exact Reads.poke_self (by decide) (by decide) (by decide)

theorem fat_init_zero {a : Nat} (ha : 12 ≤ a) : fat_init s_zero_sector a = 0 := by
  have hpoke : ∀ (p : Nat) (v : Int) (s : Sector), p ≤ 8 → s a = 0 → POKEW p v s a = 0 := by
    intro p v s hp hs
    rw [POKEW, poke, store, dif_neg (by rw [leBytes_length]; omega), hs]
  exact hpoke _ _ _ (by decide) (hpoke _ _ _ (by decide) (hpoke _ _ _ (by decide) rfl))

/-- An empty table is what the first sector of it starts with, and zeros. -/
theorem load_fat_init {n : Nat} (hn : 0 < n) :
    load (fat_init s_zero_sector) 0 (n * BYTES_PER_SECTOR) = emptyFat n := by
  obtain ⟨k, rfl⟩ := Nat.exists_eq_add_of_lt hn
  have hsplit : (0 + k + 1) * BYTES_PER_SECTOR = BYTES_PER_SECTOR + k * BYTES_PER_SECTOR := by grind
  have hzeros : load (fat_init s_zero_sector) (0 + BYTES_PER_SECTOR) (k * BYTES_PER_SECTOR) =
      List.replicate (k * BYTES_PER_SECTOR) 0 := by
    refine List.eq_replicate_iff.mpr ⟨load_length _ _ _, fun b hb => ?_⟩
    obtain ⟨i, -, rfl⟩ := List.mem_map.mp hb
    have hbytes : BYTES_PER_SECTOR = 512 := rfl
    exact fat_init_zero (by omega)
  grind [load_add, emptyFat]

/-- The entries of an empty table. -/
theorem fat_init_entry (cluster : Nat) :
    loadLE (fat_init s_zero_sector) (4 * cluster) 4 = 0 ↔ 3 ≤ cluster := by
  constructor
  · intro hzero
    refine Decidable.byContradiction fun hsmall => ?_
    obtain rfl | rfl | rfl : cluster = 0 ∨ cluster = 1 ∨ cluster = 2 := by omega
    · exact absurd hzero (by decide)
    · exact absurd hzero (by decide)
    · exact absurd hzero (by decide)
  · intro hcluster
    have hload : load (fat_init s_zero_sector) (4 * cluster) 4 = List.replicate 4 0 := by
      refine List.eq_replicate_iff.mpr ⟨load_length _ _ _, fun b hb => ?_⟩
      obtain ⟨i, -, rfl⟩ := List.mem_map.mp hb
      exact fat_init_zero (by omega)
    rw [loadLE, hload]
    rfl

/-! ## The image -/

section Image

variable {image : List UInt8} {boot : Sector} {cluster fat total rest : Nat}

theorem fatEntry_eq_zero_iff (hfields : BootFields boot total cluster fat)
    (hfat : 0 < fat) (hparts : Parts (disk image) boot (fsinfoSector rest s_zero_sector) fat rest)
    {k : Nat} (hk : k < fat * 128) : fatEntry image k = 0 ↔ 3 ≤ k := by
  have hreserved := hparts.bootField (v := RESERVED_SECTORS) hfields.reserved_sectors (by decide)
  have hbytes : BYTES_PER_SECTOR = 512 := rfl
  have hin : 4 * k + 4 ≤ fat * BYTES_PER_SECTOR := by
    rw [hbytes]
    omega
  have htable := hparts.fat₁
  rw [← load_fat_init hfat] at htable
  have hload := htable.load_load hin
  rw [Nat.zero_add] at hload
  rw [fatEntry, hreserved, loadLE]
  have hoffset : RESERVED_SECTORS * BYTES_PER_SECTOR = 32 * BYTES_PER_SECTOR := rfl
  rw [hoffset, hload]
  exact fat_init_entry k

theorem dataSectors_eq (hfields : BootFields boot total cluster fat)
    (hparts : Parts (disk image) boot (fsinfoSector rest s_zero_sector) fat rest)
    (htotal : 32 + 2 * fat + rest = total) : dataSectors image = rest := by
  have hreserved := hparts.bootField (v := RESERVED_SECTORS) hfields.reserved_sectors (by decide)
  have hfats := hparts.bootField (v := NUM_FATS) hfields.fats (by decide)
  have htotalField := hparts.bootField hfields.sectors_per_disk (by decide)
  have hfatField := hparts.bootField hfields.sectors_per_fat (by decide)
  rw [dataSectors, dataSector, hreserved, hfats, htotalField, hfatField]
  have h32 : RESERVED_SECTORS = 32 := rfl
  have h2 : NUM_FATS = 2 := rfl
  rw [h32, h2]
  omega

/-- Every cluster is free but the first one, which has the root directory. -/
theorem freeClusters_eq (hfields : BootFields boot total cluster fat)
    (hsize : FatSize total cluster fat)
    (hparts : Parts (disk image) boot (fsinfoSector rest s_zero_sector) fat rest)
    (htotal : 32 + 2 * fat + rest = total) :
    freeClusters image = List.range' 3 (rest / cluster - 1) := by
  have hfat : 0 < fat := by exact_mod_cast hsize.pos
  have hcluster := hparts.bootField hfields.sectors_per_cluster (by decide)
  have hentries := hsize.entries_nat
  rw [← htotal, Nat.add_sub_cancel_left] at hentries
  rw [freeClusters, dataClusters, dataSectors_eq hfields hparts htotal, hcluster]
  have hfilter : ∀ k ∈ List.range' 2 (rest / cluster),
      decide (fatEntry image k = 0) = decide (3 ≤ k) := by
    intro k hk
    have hlt := (List.mem_range'_1.mp hk).2
    rw [decide_eq_decide]
    exact fatEntry_eq_zero_iff hfields hfat hparts (by omega)
  rw [List.filter_congr hfilter]
  cases rest / cluster with
  | zero => rfl
  | succ n =>
      rw [List.range'_succ, List.filter_cons_of_neg (by decide), Nat.add_sub_cancel]
      refine List.filter_eq_self.mpr fun k hk => ?_
      exact decide_eq_true (List.mem_range'_1.mp hk).1

/-- What the FSInfo sector stores: the sectors of the data area, and the cluster behind the root
directory. -/
theorem infoField_eq (hfields : BootFields boot total cluster fat)
    (hparts : Parts (disk image) boot (fsinfoSector rest s_zero_sector) fat rest)
    (hrest : rest < 2 ^ 32) : infoField image 488 = rest ∧ infoField image 492 = 3 := by
  have hinfo := hparts.bootField (v := 1) hfields.fsinfo (by decide)
  have hload : ∀ p, p + 4 ≤ BYTES_PER_SECTOR →
      infoField image p = loadLE (fsinfoSector rest s_zero_sector) p 4 := by
    intro p hp
    have h := hparts.fsinfo_sector.load_load hp
    grind [infoField, loadLE]
  constructor
  · rw [hload 488 (by decide)]
    exact Int.ofNat_inj.mp (fsinfoSector_free_count _ (by omega) (by omega))
  · rw [hload 492 (by decide)]
    exact Int.ofNat_inj.mp (fsinfoSector_next_free _ _)

end Image

/-! ## The program -/

/-- The data area has room for two clusters. -/
theorem two_clusters {disk_size : Int} (hmin : 9 * 1024 * 1024 ≤ disk_size)
    {cluster fat total rest : Nat} (htotal : disk_size / BYTES_PER_SECTOR = total)
    (hcluster : get_sectors_per_cluster disk_size = cluster)
    (hfat : get_sectors_per_fat disk_size cluster = .ok (fat : Int))
    (hrest : 32 + 2 * fat + rest = total) : 2 ≤ rest / cluster := by
  have hreserved : (RESERVED_SECTORS : Int) = 32 := rfl
  obtain ⟨hpos, -, hlarge⟩ := get_sectors_per_cluster_band hmin
  rw [hcluster] at hpos hlarge
  rw [htotal] at hlarge
  have hroom : RESERVED_SECTORS ≤ disk_size / BYTES_PER_SECTOR := by omega
  rw [get_sectors_per_fat_eq hpos hroom, htotal] at hfat
  obtain ⟨-, hdown, hgt⟩ := quotient_bounds hpos hlarge (int_eq_ok.mp hfat).2
  have htwo : 2 * (cluster : Int) ≤ fat * cluster :=
    Int.mul_le_mul_of_nonneg_right (by omega) (by omega)
  have hone : (fat : Int) * 1 ≤ fat * cluster := Int.mul_le_mul_of_nonneg_left hpos (by omega)
  refine (Nat.le_div_iff_mul_le (by omega)).mpr ?_
  omega

/-- What is stored for an image, and what is free in it. -/
theorem main_free {fopen : Bool} {accepts : Nat → Bool} {tm : Tm} {size : SizeArgument}
    {image : List UInt8} (h : main fopen accepts tm size = .ok image) :
    infoField image 488 = dataSectors image ∧
      (freeClusters image).length = dataSectors image / bootField image 0x0d 1 - 1 ∧
      2 ≤ dataSectors image / bootField image 0x0d 1 ∧
      infoField image 492 ∈ freeClusters image := by
  obtain ⟨disk_size, hsize, -⟩ := Run.bind_eq_ok.mp h
  obtain ⟨hmin, hmax⟩ := diskSize_range hsize
  obtain ⟨boot, cluster, fat, total, rest, hwritten⟩ := main_written hsize tm
  have hfat : 0 < fat := by exact_mod_cast hwritten.fatSize.pos
  have himage : image = imageBytes boot (fsinfoSector rest s_zero_sector) fat rest := by
    obtain hok | ⟨hfailed, -⟩ := hwritten.image fopen accepts
    · exact Except.ok.inj (h.symm.trans hok)
    · grind
  have hparts : Parts (disk image) boot (fsinfoSector rest s_zero_sector) fat rest := by
    rw [himage]
    exact imageBytes_parts hfat (holds_ofList _ _)
  have hlt : rest < 2 ^ 32 := by
    have htotal := hwritten.sectors
    have hparts := hwritten.parts
    have hbytes : (BYTES_PER_SECTOR : Int) = 512 := rfl
    have hmaxSize : MAX_DISK_SIZE = 0x7FFFFFFF * 512 := rfl
    grind
  have htwo := two_clusters hmin hwritten.sectors hwritten.cluster_eq hwritten.fat_eq
    hwritten.parts
  have hcluster := hparts.bootField hwritten.fields.sectors_per_cluster (by decide)
  obtain ⟨hcount, hhint⟩ := infoField_eq hwritten.fields hparts hlt
  rw [dataSectors_eq hwritten.fields hparts hwritten.parts, hcluster,
    freeClusters_eq hwritten.fields hwritten.fatSize hparts hwritten.parts, hcount, hhint,
    List.length_range']
  grind

/-- The count is wrong for every image: it counts sectors, and the root directory's cluster too. -/
theorem freeCount_wrong {fopen : Bool} {accepts : Nat → Bool} {tm : Tm} {size : SizeArgument}
    {image : List UInt8} (h : main fopen accepts tm size = .ok image) :
    ¬ FreeCountRight image := by
  rintro ⟨hright, -⟩
  obtain ⟨hcount, hfree, htwo, -⟩ := main_free h
  rw [hcount, hfree] at hright
  have hle := Nat.div_le_self (dataSectors image) (bootField image 0x0d 1)
  omega

/-- A card of nine megabytes. -/
theorem freeCount_wrong_9M : ∃ image,
    main true (fun _ => true) ⟨0, 0, 0, 1, 0, 107⟩ ⟨9, 'M', false⟩ = .ok image ∧
      ¬ FreeCountRight image := by
  have hsize : diskSize ⟨9, 'M', false⟩ = .ok (9 * 1024 * 1024) := by decide
  obtain ⟨boot, cluster, fat, total, rest, hwritten⟩ :=
    main_written hsize ⟨0, 0, 0, 1, 0, 107⟩
  exact ⟨_, hwritten.main_eq, freeCount_wrong hwritten.main_eq⟩

/-- A card of 512 megabytes, where a cluster has four sectors. -/
theorem freeCount_512M : ∃ image,
    main true (fun _ => true) ⟨0, 0, 0, 1, 0, 107⟩ ⟨512, 'M', false⟩ = .ok image ∧
      infoField image 488 ≠ (freeClusters image).length := by
  have hsize : diskSize ⟨512, 'M', false⟩ = .ok (512 * 1024 * 1024) := by decide
  obtain ⟨boot, cluster, fat, total, rest, hwritten⟩ :=
    main_written hsize ⟨0, 0, 0, 1, 0, 107⟩
  obtain ⟨hcount, hfree, htwo, -⟩ := main_free hwritten.main_eq
  refine ⟨_, hwritten.main_eq, ?_⟩
  rw [hcount, hfree]
  have hle := Nat.div_le_self
    (dataSectors (imageBytes boot (fsinfoSector rest s_zero_sector) fat rest))
    (bootField (imageBytes boot (fsinfoSector rest s_zero_sector) fat rest) 0x0d 1)
  omega

end AndroidRenderer.Mksdcard
