import AndroidRenderer.GuestEgl.Egl

/-!
# Attribute lists

`eglCreateContext` and `eglCreatePbufferSurface` scan a list of keys and values. A list is what is
readable from its pointer on, and a read beyond that is a fault.
-/

namespace AndroidRenderer.GuestEgl

def EGL_NONE : EGLint := 0x3038
def EGL_HEIGHT : EGLint := 0x3056
def EGL_WIDTH : EGLint := 0x3057
def EGL_NO_TEXTURE : EGLint := 0x305C
def EGL_TEXTURE_FORMAT : EGLint := 0x3080
def EGL_TEXTURE_TARGET : EGLint := 0x3081

/-- What a scan has found, and the positions that it has read. -/
abbrev Scanned (σ : Type) := Except MemoryFault (σ × List Nat)

variable {σ : Type}

/-- The loop over an attribute list from position `n` on: `set` is the `switch`, which reads the
values of some keys only. -/
def scanAttribs (set : EGLint → Option (EGLint → σ → σ)) :
    List EGLint → Nat → σ → List Nat → Scanned σ
  | [], _, _, _ => .error .outOfBounds
  | [key], n, s, reads => if key = 0 then .ok (s, reads ++ [n]) else .error .outOfBounds
  | key :: value :: rest, n, s, reads =>
      if key = 0 then .ok (s, reads ++ [n])
      else
        match set key with
        | none => scanAttribs set rest (n + 2) s (reads ++ [n])
        | some f => scanAttribs set rest (n + 2) (f value s) (reads ++ [n, n + 1])

structure PbufferAttribs where
  w : EGLint
  h : EGLint
  texFormat : EGLint
  texTarget : EGLint
  deriving DecidableEq, Repr

/-- A call that scans an attribute list: what it starts with, and the `switch`. -/
structure AttribCall (σ : Type) where
  forPbuffer : Bool
  start : σ
  set : EGLint → Option (EGLint → σ → σ)
  takesNull : Bool

namespace AttribCall

/-- `eglCreateContext` looks for the version. -/
def eglCreateContext : AttribCall EGLint where
  forPbuffer := false
  start := 1
  set key := if key = EGL_CONTEXT_CLIENT_VERSION then some fun value _ => value else none
  takesNull := true

/-- `eglCreatePbufferSurface` does not look whether there is a list. -/
def eglCreatePbufferSurface : AttribCall PbufferAttribs where
  forPbuffer := true
  start := ⟨0, 0, EGL_NO_TEXTURE, EGL_NO_TEXTURE⟩
  set key :=
    if key = EGL_WIDTH then some fun value a => { a with w := value }
    else if key = EGL_HEIGHT then some fun value a => { a with h := value }
    else if key = EGL_TEXTURE_FORMAT then some fun value a => { a with texFormat := value }
    else if key = EGL_TEXTURE_TARGET then some fun value a => { a with texTarget := value }
    else none
  takesNull := false

variable {c : AttribCall σ} {n : Nat}

/-- `surfaceType` is the `EGL_SURFACE_TYPE` of the configuration, whose bit 0 is `EGL_PBUFFER_BIT`;
`none` where there is no such attribute. -/
def takesPbuffer (surfaceType : Option EGLint) : Prop :=
  ∃ bits, surfaceType = some bits ∧ bits % 2 = 1

instance (surfaceType : Option EGLint) : Decidable (takesPbuffer surfaceType) :=
  decidable_of_iff (surfaceType.any (· % 2 = 1)) (by cases surfaceType <;> simp [takesPbuffer])

/-- The call goes past the checks in front of the scan. -/
def Valid (c : AttribCall σ) (s : Egl n) (dpy : EGLDisplay) (config : EGLint)
    (surfaceType : Option EGLint) : Prop :=
  s.displayError dpy = none ∧ s.configError config = none ∧
    (c.forPbuffer = true → takesPbuffer surfaceType)

instance (s : Egl n) (dpy : EGLDisplay) (config : EGLint) (surfaceType : Option EGLint) :
    Decidable (c.Valid s dpy config surfaceType) :=
  inferInstanceAs (Decidable (_ ∧ _ ∧ _))

/-- What a call has found when it goes on to create the object; `none` if it has returned an error
for its display, its configuration or the surface type before that. -/
def scan (c : AttribCall σ) (s : Egl n) (dpy : EGLDisplay) (config : EGLint)
    (surfaceType : Option EGLint) (attrib_list : Option (List EGLint)) :
    Except MemoryFault (Option (σ × List Nat)) :=
  if ¬c.Valid s dpy config surfaceType then .ok none
  else
    match attrib_list with
    | none => if c.takesNull then .ok (some (c.start, [])) else .error .outOfBounds
    | some mem => (scanAttribs c.set mem 0 c.start []).map some

/-! ## Lists that end with `EGL_NONE` -/

/-- The pairs of a list in memory, with the terminator and what follows. -/
def listOf (pairs : List (EGLint × EGLint)) (after : List EGLint) : List EGLint :=
  (pairs.flatMap fun p => [p.1, p.2]) ++ EGL_NONE :: after

/-- A list with its first terminator, and what is readable behind that. -/
structure Terminated where
  pairs : List (EGLint × EGLint)
  after : List EGLint
  first : ∀ p ∈ pairs, p.1 ≠ EGL_NONE

def taken (c : AttribCall σ) (pairs : List (EGLint × EGLint)) : σ :=
  pairs.foldl (fun s p => (c.set p.1).elim s fun f => f p.2 s) c.start

/-- What a scan should give: an error, or what the pairs of the list say, read up to its terminator.
Without a list, there is nothing to read. -/
def Reads (c : AttribCall σ)
    (scan : Option (List EGLint) → Except MemoryFault (Option (σ × List Nat))) :
    Option Terminated → Prop
  | none => scan none = .ok none ∨ scan none = .ok (some (c.start, []))
  | some ⟨pairs, after, _⟩ => scan (some (listOf pairs after)) = .ok none ∨
      ∃ reads, scan (some (listOf pairs after)) = .ok (some (c.taken pairs, reads)) ∧
        2 * pairs.length ∈ reads ∧ ∀ n ∈ reads, n ≤ 2 * pairs.length

/-- What has been read is kept. -/
theorem reads_of_scanAttribs {set : EGLint → Option (EGLint → σ → σ)} {mem : List EGLint} {s s' : σ}
    {reads reads' : List Nat}
    (h : scanAttribs set mem n s reads = .ok (s', reads')) :
    n ∈ reads' ∧ ∀ k ∈ reads, k ∈ reads' := by
  induction mem, n, s, reads using scanAttribs.induct set with
  | case1 n s reads => cases h
  | case2 n s reads => grind [scanAttribs]
  | case3 key n s reads hkey => simp [scanAttribs, hkey] at h
  | case4 value rest n s reads => grind [scanAttribs]
  | case5 key value rest n s reads hkey hset ih => grind [scanAttribs]
  | case6 key value rest n s reads hkey f hset ih => grind [scanAttribs]

/-- The scan goes over the terminator, or does not come to it. -/
theorem scanAttribs_listOf {set : EGLint → Option (EGLint → σ → σ)} (hset : set EGL_NONE = none)
    {pairs : List (EGLint × EGLint)} {after : List EGLint} {s s' : σ}
    {reads reads' : List Nat} (hreads : ∀ k ∈ reads, k < n)
    (h : scanAttribs set (listOf pairs after) n s reads = .ok (s', reads')) :
    n + 2 * pairs.length ∉ reads' ∨ n + 2 * pairs.length + 2 ∈ reads' := by
  induction pairs generalizing n s reads with
  | nil =>
      cases after with
      | nil => exact absurd h (by simp [listOf, scanAttribs, EGL_NONE])
      | cons value rest =>
          have hnone : EGL_NONE ≠ 0 := by decide
          simp only [listOf, List.flatMap_nil, List.nil_append, scanAttribs, if_neg hnone,
            hset] at h
          exact .inr (reads_of_scanAttribs h).1
  | cons p pairs ih =>
      have hcons : listOf (p :: pairs) after = p.1 :: p.2 :: listOf pairs after := rfl
      rw [hcons, scanAttribs] at h
      have hlen : n + 2 * (p :: pairs).length = n + 2 + 2 * pairs.length := by
        rw [List.length_cons]
        omega
      rw [hlen]
      split at h
      · cases h
        refine .inl fun hmem => ?_
        rcases List.mem_append.mp hmem with hmem | hmem
        · have hlt := hreads _ hmem
          omega
        · rw [List.mem_singleton] at hmem
          omega
      · split at h
        · exact ih (by grind) h
        · exact ih (by grind) h

/-- A list that ends with `EGL_NONE` is never read up to its end and no further; only a call that
fails before it, or that takes the null pointer and gets it, reads what it should. -/
theorem reads_iff (hset : c.set EGL_NONE = none) (s : Egl n) (dpy : EGLDisplay) (config : EGLint)
    (surfaceType : Option EGLint) (attrib_list : Option Terminated) :
    c.Reads (c.scan s dpy config surfaceType) attrib_list ↔
      ¬c.Valid s dpy config surfaceType ∨ attrib_list = none ∧ c.takesNull = true := by
  by_cases hvalid : c.Valid s dpy config surfaceType
  · cases attrib_list with
    | none => cases hnull : c.takesNull <;> simp [Reads, scan, hvalid, hnull]
    | some list =>
        obtain ⟨pairs, after, -⟩ := list
        refine iff_of_false ?_ (by simp [hvalid])
        rintro (hnone | ⟨reads, hscan, hmem, hle⟩)
        · rw [scan, if_neg (not_not.mpr hvalid)] at hnone
          obtain ⟨_, -, hnone⟩ := Run.map_eq_ok.mp hnone
          cases hnone
        · rw [scan, if_neg (not_not.mpr hvalid)] at hscan
          obtain ⟨r, hr, hsome⟩ := Run.map_eq_ok.mp hscan
          cases hsome
          have hlist := scanAttribs_listOf hset (by simp) hr
          rw [Nat.zero_add] at hlist
          rcases hlist with hnot | hbeyond
          · exact hnot hmem
          · exact absurd (hle _ hbeyond) (by omega)
  · refine iff_of_true ?_ (.inl hvalid)
    cases attrib_list <;> exact .inl (if_pos hvalid)

end AttribCall

/-- Neither call reads a list that ends with `EGL_NONE` up to its end, and no further. -/
theorem creates_read_iff {n : Nat} (s : Egl n) (dpy : EGLDisplay) (config : EGLint)
    (surfaceType : Option EGLint) (attrib_list : Option AttribCall.Terminated) :
    (AttribCall.eglCreateContext.Reads (AttribCall.eglCreateContext.scan s dpy config surfaceType)
        attrib_list ↔
      s.displayError dpy ≠ none ∨ s.configError config ≠ none ∨ attrib_list = none) ∧
      (AttribCall.eglCreatePbufferSurface.Reads
          (AttribCall.eglCreatePbufferSurface.scan s dpy config surfaceType) attrib_list ↔
        s.displayError dpy ≠ none ∨ s.configError config ≠ none ∨
          ¬AttribCall.takesPbuffer surfaceType) := by
  constructor
  · rw [AttribCall.reads_iff (by decide)]
    grind [AttribCall.Valid, AttribCall.eglCreateContext]
  · rw [AttribCall.reads_iff (by decide)]
    grind [AttribCall.Valid, AttribCall.eglCreatePbufferSurface]

/-- What follows the terminator is read as another pair. -/
theorem not_reads_version : ¬∀ (s : Egl 1) dpy config surfaceType attrib_list,
    AttribCall.eglCreateContext.Reads (AttribCall.eglCreateContext.scan s dpy config surfaceType)
        attrib_list ∧
      AttribCall.eglCreatePbufferSurface.Reads
        (AttribCall.eglCreatePbufferSurface.scan s dpy config surfaceType) attrib_list := by
  intro h
  rcases (h (.initial 1) s_display 0 none
      (some ⟨[(EGL_CONTEXT_CLIENT_VERSION, 2)], [7, 0], by decide⟩)).1 with
    hnone | ⟨reads, hscan, -, hle⟩
  · cases hnone
  · cases hscan
    exact absurd (hle 4 (by decide)) (by decide)

end AndroidRenderer.GuestEgl
