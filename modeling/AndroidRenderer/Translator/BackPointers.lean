import AndroidRenderer.Lib.Links
import AndroidRenderer.Translator.Attachments

/-!
# Links of renderbuffers to framebuffers

The data of a renderbuffer names one point of a framebuffer. It is the one that the renderbuffer is
attached to, as long as none is attached to two points, and none is attached that GLES_CM makes an
object for.
-/

namespace AndroidRenderer.Translator

theorem attachmentPointIndex_inj {p p' : GLenum} (hp : framebufferAttachment p = true)
    (hp' : framebufferAttachment p' = true)
    (h : attachmentPointIndex p = attachmentPointIndex p') : p = p' := by
  have hcases : ∀ q, framebufferAttachment q = true → q = GL_COLOR_ATTACHMENT0 ∨
      q = GL_DEPTH_ATTACHMENT ∨ q = GL_STENCIL_ATTACHMENT := by
    simp [framebufferAttachment, Bool.or_eq_true, or_assoc]
  rcases hcases p hp with rfl | rfl | rfl <;> rcases hcases p' hp' with rfl | rfl | rfl <;>
    first | rfl | exact absurd h (by decide)

/-! ## Data of renderbuffers -/

@[grind =] theorem get?_modifyRenderbuffer (heap : Registry RenderbufferData) (o o' : Nat)
    (f : RenderbufferData → RenderbufferData) :
    (modifyRenderbuffer heap o f).get? o' =
      if o' = o then (heap.get? o).map f else heap.get? o' := by
  unfold modifyRenderbuffer
  grind

/-- The point that the data of a renderbuffer names, if it names one. -/
def attachedTo (heap : Registry RenderbufferData) (o : Nat) : Option (GLuint × GLenum) :=
  (heap.get? o).bind fun rb =>
    if framebufferAttachment rb.attachedPoint then some (rb.attachedFB, rb.attachedPoint) else none

theorem attachedTo_eq_some {heap : Registry RenderbufferData} {o : Nat} {f : GLuint} {p : GLenum}
    (hp : framebufferAttachment p = true) : attachedTo heap o = some (f, p) ↔
      ∃ rb, heap.get? o = some rb ∧ rb.attachedFB = f ∧ rb.attachedPoint = p := by
  rw [attachedTo, Option.bind_eq_some_iff]
  grind

theorem attachedTo_valid {heap : Registry RenderbufferData} {o : Nat} {x : GLuint × GLenum}
    (h : attachedTo heap o = some x) : framebufferAttachment x.2 = true := by
  obtain ⟨rb, -, hif⟩ := Option.bind_eq_some_iff.mp h
  grind

theorem attachedTo_modifyRenderbuffer (heap : Registry RenderbufferData) (o o' : Nat)
    {f : RenderbufferData → RenderbufferData}
    (hf : ∀ rb, (f rb).attachedFB = rb.attachedFB ∧ (f rb).attachedPoint = rb.attachedPoint) :
    attachedTo (modifyRenderbuffer heap o f) o' = attachedTo heap o' := by
  rw [attachedTo, attachedTo, get?_modifyRenderbuffer]
  split
  · rename_i heq
    rw [heq]
    cases heap.get? o with
    | none => rfl
    | some rb => grind
  · rfl

theorem attachedTo_unlink (heap : Registry RenderbufferData) {point : AttachPoint}
    (htarget : ∀ o, point.obj = some o → point.target = GL_RENDERBUFFER) (o : Nat) :
    attachedTo (FramebufferData.unlink heap point) o =
      if point.obj = some o then none else attachedTo heap o := by
  unfold FramebufferData.unlink
  cases hobj : point.obj with
  | none => simp
  | some o' =>
      rw [if_pos (htarget o' hobj), Option.elim_some, attachedTo, get?_modifyRenderbuffer]
      by_cases heq : o = o'
      · rw [if_pos heq, if_pos (congrArg some heq.symm)]
        cases heap.get? o' with
        | none => rfl
        | some rb => rfl
      · rw [if_neg heq, if_neg fun h => heq (Option.some.inj h).symm]
        rfl

theorem attachedTo_link {heap : Registry RenderbufferData} {o : Nat}
    (hlive : (heap.get? o).isSome = true) (f : GLuint) {p : GLenum}
    (hp : framebufferAttachment p = true) (o' : Nat) :
    attachedTo (modifyRenderbuffer heap o ({ · with attachedFB := f, attachedPoint := p })) o' =
      if o' = o then some (f, p) else attachedTo heap o' := by
  obtain ⟨rb, hrb⟩ := Option.isSome_iff_exists.mp hlive
  grind [attachedTo]

theorem isSome_unlink (heap : Registry RenderbufferData) (point : AttachPoint) (o : Nat) :
    ((FramebufferData.unlink heap point).get? o).isSome = (heap.get? o).isSome := by
  unfold FramebufferData.unlink
  split
  · cases point.obj with
    | none => rfl
    | some o' => grind
  · rfl

/-! ## `setAttachment` -/

namespace FramebufferData

variable {fb : FramebufferData} {heap : Registry RenderbufferData} {attachment target : GLenum}
  {name : GLuint} {obj : Option Nat} {owned : Bool}

theorem setAttachment_fbName :
    (fb.setAttachment heap attachment target name obj owned).1.fbName = fb.fbName := by
  unfold setAttachment
  dsimp only
  split <;> rfl

theorem setAttachment_attachPoints :
    (fb.setAttachment heap attachment target name obj owned).1.attachPoints =
      Function.update fb.attachPoints (attachmentPointIndex attachment)
        ⟨target, name, obj, owned⟩ := by
  unfold setAttachment
  grind [detachObject, Function.update_idem]

/-- The data that there is stays. -/
theorem setAttachment_isSome (o : Nat) :
    ((fb.setAttachment heap attachment target name obj owned).2.get? o).isSome =
      (heap.get? o).isSome := by
  unfold setAttachment
  dsimp only
  split
  · rw [detachObject]
    dsimp only
    rw [← isSome_unlink heap (fb.attachPoints (attachmentPointIndex attachment))]
    split
    · cases obj with
      | none => rfl
      | some o' => grind
    · rfl
  · rfl

/-- The renderbuffer of the point is unlinked. -/
theorem attachedTo_setAttachment_none
    (htarget : ∀ o, (fb.attachPoints (attachmentPointIndex attachment)).obj = some o →
      (fb.attachPoints (attachmentPointIndex attachment)).target = GL_RENDERBUFFER) (o : Nat) :
    attachedTo (fb.setAttachment heap attachment target name none owned).2 o =
      if (fb.attachPoints (attachmentPointIndex attachment)).obj = some o then none
      else attachedTo heap o := by
  unfold setAttachment
  dsimp only
  split
  · rw [detachObject]
    dsimp only
    rw [Option.elim_none, ite_self, attachedTo_unlink heap htarget]
  · grind

/-- The new renderbuffer is linked to the point, and the one before it is not. -/
theorem attachedTo_setAttachment_some
    (htarget : ∀ o, (fb.attachPoints (attachmentPointIndex attachment)).obj = some o →
      (fb.attachPoints (attachmentPointIndex attachment)).target = GL_RENDERBUFFER)
    (hp : framebufferAttachment attachment = true) {o : Nat} (hlive : (heap.get? o).isSome = true)
    (hlinked : (fb.attachPoints (attachmentPointIndex attachment)).obj = some o →
      attachedTo heap o = some (fb.fbName, attachment)) (o' : Nat) :
    attachedTo (fb.setAttachment heap attachment GL_RENDERBUFFER name (some o) owned).2 o' =
      if o' = o then some (fb.fbName, attachment)
      else if (fb.attachPoints (attachmentPointIndex attachment)).obj = some o' then none
      else attachedTo heap o' := by
  unfold setAttachment
  dsimp only
  split
  · grind [detachObject, attachedTo_link, attachedTo_unlink, isSome_unlink]
  · grind

end FramebufferData

namespace SharedFramebuffers

variable {k : Nat} {s s' : SharedFramebuffers k} {c : Fin k}

/-! ## Slots and links -/

def point (s : SharedFramebuffers k) (f : GLuint) (p : GLenum) : AttachPoint :=
  (s.framebuffer? f).elim .new fun fb => fb.attachPoints (attachmentPointIndex p)

/-- A point of a framebuffer holds the data of a renderbuffer. -/
def Holds (s : SharedFramebuffers k) (f : GLuint) (p : GLenum) (o : Nat) : Prop :=
  (s.point f p).obj = some o

/-- The points hold the renderbuffers that name them, and these are what the share group has for
the names of the points. -/
structure BackPointers (s : SharedFramebuffers k) : Prop where
  attached : ∀ f p o, framebufferAttachment p = true → (s.Holds f p o ↔
    ∃ rb, s.renderbuffers.get? o = some rb ∧ rb.attachedFB = f ∧ rb.attachedPoint = p)
  stored : ∀ f p o, framebufferAttachment p = true → s.Holds f p o →
    s.renderbuffer? (s.point f p).name = some o

/-- The points as slots, and what renderbuffers are attached to as links back. -/
def links (s : SharedFramebuffers k) : Links (GLuint × GLenum) Nat where
  slots := fun x => if framebufferAttachment x.2 then (s.point x.1 x.2).obj else none
  back := attachedTo s.renderbuffers

theorem slots_eq_some {f : GLuint} {p : GLenum} {o : Nat} :
    s.links.slots (f, p) = some o ↔ framebufferAttachment p = true ∧ s.Holds f p o := by
  unfold links Holds
  simp

theorem linked_iff : s.links.Linked ↔ ∀ f p o, framebufferAttachment p = true → (s.Holds f p o ↔
    ∃ rb, s.renderbuffers.get? o = some rb ∧ rb.attachedFB = f ∧ rb.attachedPoint = p) := by
  constructor
  · intro h f p o hp
    rw [← attachedTo_eq_some hp]
    exact ⟨fun hholds => (h (f, p) o).mp (slots_eq_some.mpr ⟨hp, hholds⟩),
      fun hback => (slots_eq_some.mp ((h (f, p) o).mpr hback)).2⟩
  · rintro h ⟨f, p⟩ o
    constructor
    · intro hslot
      obtain ⟨hp, hholds⟩ := slots_eq_some.mp hslot
      exact (attachedTo_eq_some hp).mpr ((h f p o hp).mp hholds)
    · intro hback
      have hp := attachedTo_valid hback
      exact slots_eq_some.mpr ⟨hp, (h f p o hp).mpr ((attachedTo_eq_some hp).mp hback)⟩

/-- The links are right, renderbuffers have data of their own, and points hold nothing else. -/
structure Inv (s : SharedFramebuffers k) : Prop where
  pointers : s.BackPointers
  live : ∀ name o, s.renderbuffer? name = some o → (s.renderbuffers.get? o).isSome = true
  unique : ∀ name name' o, s.renderbuffer? name = some o → s.renderbuffer? name' = some o →
    name = name'
  target : ∀ f p o, framebufferAttachment p = true → s.Holds f p o →
    (s.point f p).target = GL_RENDERBUFFER
  fbName : ∀ f fb, s.framebuffer? f = some fb → fb.fbName = f

theorem Inv.linked (hinv : s.Inv) : s.links.Linked := linked_iff.mpr hinv.pointers.attached

theorem initial_inv (contexts : Fin k → AttachmentContext) : (initial contexts).Inv := by
  refine ⟨⟨fun f p o _ => ⟨fun h => (nomatch h), fun ⟨_, h, _⟩ => (nomatch h)⟩, ?_⟩,
    ?_, ?_, ?_, ?_⟩
  · exact fun _ _ _ _ h => (nomatch h)
  · exact fun _ _ h => (nomatch h)
  · exact fun _ _ _ h => (nomatch h)
  · exact fun _ _ _ _ h => (nomatch h)
  · exact fun _ _ h => (nomatch h)

/-- Changes that attach and detach nothing. -/
theorem Inv.congr (hinv : s.Inv) (hpoint : s'.point = s.point)
    (hattached : attachedTo s'.renderbuffers = attachedTo s.renderbuffers)
    (hstored : ∀ name o, s.renderbuffer? name = some o → s'.renderbuffer? name = some o)
    (hlive : ∀ name o, s'.renderbuffer? name = some o → (s'.renderbuffers.get? o).isSome = true)
    (hunique : ∀ name name' o, s'.renderbuffer? name = some o → s'.renderbuffer? name' = some o →
      name = name')
    (hfbName : ∀ f fb, s'.framebuffer? f = some fb → fb.fbName = f) : s'.Inv := by
  have hlinks : s'.links = s.links := by
    unfold links
    rw [hpoint, hattached]
  refine ⟨⟨?_, ?_⟩, hlive, hunique, ?_, hfbName⟩
  · rw [← linked_iff, hlinks]
    exact hinv.linked
  · unfold Holds
    rw [hpoint]
    exact fun f p o hp hholds => hstored _ o (hinv.pointers.stored f p o hp hholds)
  · unfold Holds
    rw [hpoint]
    exact hinv.target

/-! ## Changes of a framebuffer -/

@[grind =] theorem framebuffer?_setFramebuffer (s : SharedFramebuffers k) (name f : GLuint)
    (changed : FramebufferData × Registry RenderbufferData) :
    (s.setFramebuffer name changed).framebuffer? f =
      if f = name then some changed.1 else s.framebuffer? f := by
  have hdata := s.names.getObjectData_setObjectData .FRAMEBUFFER (localName name) (localName f)
    (.FramebufferData changed.1)
  have hsame : (s.setFramebuffer name changed).names.getObjectData .FRAMEBUFFER (localName f) =
      (s.names.setObjectData .FRAMEBUFFER (localName name)
        (.FramebufferData changed.1)).getObjectData .FRAMEBUFFER (localName f) := rfl
  rw [framebuffer?, hsame, hdata]
  by_cases hf : f = name
  · rw [if_pos (congrArg localName hf), if_pos hf]
    rfl
  · simp [framebuffer?, localName_inj, hf]

@[simp] theorem renderbuffer?_setFramebuffer (s : SharedFramebuffers k) (name : GLuint)
    (changed : FramebufferData × Registry RenderbufferData) :
    (s.setFramebuffer name changed).renderbuffer? = s.renderbuffer? := by
  funext name'
  have hdata : (s.setFramebuffer name changed).names.getObjectData .RENDERBUFFER
      (localName name') = s.names.getObjectData .RENDERBUFFER (localName name') := by
    refine (KeyedVector.get?_add _ _ _ _).trans (if_neg fun h => ?_)
    cases (Prod.mk.inj h).1
  rw [renderbuffer?, hdata, renderbuffer?]

section SetAttachment

variable {n name : GLuint} {fb : FramebufferData} {attachment target : GLenum} {owned : Bool}

theorem point_eq (hfb : s.framebuffer? n = some fb) (p : GLenum) :
    s.point n p = fb.attachPoints (attachmentPointIndex p) := by
  rw [point, hfb, Option.elim_some]

theorem point_setAttachment (hfb : s.framebuffer? n = some fb)
    (hp : framebufferAttachment attachment = true) (obj : Option Nat) (f : GLuint) {p : GLenum}
    (hp' : framebufferAttachment p = true) :
    (s.setFramebuffer n (fb.setAttachment s.renderbuffers attachment target name obj
        owned)).point f p =
      if f = n ∧ p = attachment then ⟨target, name, obj, owned⟩ else s.point f p := by
  rw [point, framebuffer?_setFramebuffer]
  by_cases hf : f = n
  · subst hf
    rw [if_pos rfl, Option.elim_some, FramebufferData.setAttachment_attachPoints, point_eq hfb]
    grind [attachmentPointIndex_inj]
  · grind [point]

theorem slots_setAttachment (hfb : s.framebuffer? n = some fb)
    (hp : framebufferAttachment attachment = true) (obj : Option Nat) (x : GLuint × GLenum) :
    (s.setFramebuffer n (fb.setAttachment s.renderbuffers attachment target name obj
        owned)).links.slots x =
      if x = (n, attachment) then obj else s.links.slots x := by
  obtain ⟨f, p⟩ := x
  grind [links, point_setAttachment]

theorem slots_eq (hfb : s.framebuffer? n = some fb)
    (hp : framebufferAttachment attachment = true) :
    s.links.slots (n, attachment) =
      (fb.attachPoints (attachmentPointIndex attachment)).obj := by
  unfold links
  dsimp only
  rw [if_pos hp, point_eq hfb]

theorem target_of_obj (hinv : s.Inv) (hfb : s.framebuffer? n = some fb)
    (hp : framebufferAttachment attachment = true) {o : Nat}
    (ho : (fb.attachPoints (attachmentPointIndex attachment)).obj = some o) :
    (fb.attachPoints (attachmentPointIndex attachment)).target = GL_RENDERBUFFER := by
  have htarget := hinv.target n attachment o hp
  grind [Holds, point_eq]

theorem links_setAttachment_none (hinv : s.Inv) (hfb : s.framebuffer? n = some fb)
    (hp : framebufferAttachment attachment = true) :
    (s.setFramebuffer n (fb.setAttachment s.renderbuffers attachment target name none
      owned)).links = s.links.detach (n, attachment) := by
  refine Links.ext (funext fun x => ?_) (funext fun o => ?_)
  · rw [slots_setAttachment hfb hp, Links.slots_detach]
  · refine (FramebufferData.attachedTo_setAttachment_none
      (fun o => target_of_obj hinv hfb hp) o).trans ?_
    rw [Links.detach, slots_eq hfb hp]
    rfl

theorem links_setAttachment_some (hinv : s.Inv) (hfb : s.framebuffer? n = some fb)
    (hp : framebufferAttachment attachment = true) {o : Nat}
    (hlive : (s.renderbuffers.get? o).isSome = true) :
    (s.setFramebuffer n (fb.setAttachment s.renderbuffers attachment GL_RENDERBUFFER name (some o)
      owned)).links = s.links.attach (n, attachment) o := by
  refine Links.ext (funext fun x => ?_) (funext fun o' => ?_)
  · rw [slots_setAttachment hfb hp, Links.slots_attach]
  · refine (FramebufferData.attachedTo_setAttachment_some
      (fun o => target_of_obj hinv hfb hp) hp hlive (fun ho => ?_) o').trans ?_
    · rw [hinv.fbName n fb hfb]
      exact (hinv.linked (n, attachment) o).mp ((slots_eq hfb hp).trans ho)
    · rw [Links.back_attach, Links.detach, slots_eq hfb hp, hinv.fbName n fb hfb]
      rfl

/-- The invariant after `setAttachment`, when the links are right. -/
theorem Inv.setAttachment (hinv : s.Inv) (hfb : s.framebuffer? n = some fb)
    (hp : framebufferAttachment attachment = true) {obj : Option Nat}
    (hlinked : (s.setFramebuffer n (fb.setAttachment s.renderbuffers attachment target name obj
      owned)).links.Linked)
    (hnew : ∀ o, obj = some o → target = GL_RENDERBUFFER ∧ s.renderbuffer? name = some o) :
    (s.setFramebuffer n (fb.setAttachment s.renderbuffers attachment target name obj
      owned)).Inv := by
  refine ⟨⟨linked_iff.mp hlinked, fun f p o hp' hholds => ?_⟩, fun name' o ho => ?_,
    fun name' name'' o ho ho' => ?_, fun f p o hp' hholds => ?_, fun f fb' hfb' => ?_⟩
  · rw [Holds, point_setAttachment hfb hp obj f hp'] at hholds
    rw [point_setAttachment hfb hp obj f hp', renderbuffer?_setFramebuffer]
    split at hholds
    · grind
    · rename_i hx
      rw [if_neg hx]
      exact hinv.pointers.stored f p o hp' hholds
  · rw [renderbuffer?_setFramebuffer] at ho
    exact (FramebufferData.setAttachment_isSome o).trans (hinv.live name' o ho)
  · rw [renderbuffer?_setFramebuffer] at ho ho'
    exact hinv.unique name' name'' o ho ho'
  · rw [Holds, point_setAttachment hfb hp obj f hp'] at hholds
    rw [point_setAttachment hfb hp obj f hp']
    split at hholds
    · grind
    · rename_i hx
      rw [if_neg hx]
      exact hinv.target f p o hp' hholds
  · rw [framebuffer?_setFramebuffer] at hfb'
    split at hfb'
    · rename_i hf
      rw [← Option.some.inj hfb', hf, FramebufferData.setAttachment_fbName]
      exact hinv.fbName n fb hfb
    · exact hinv.fbName f fb' hfb'

/-- Nothing, or a texture, is attached. -/
theorem Inv.setAttachment_none (hinv : s.Inv) (hfb : s.framebuffer? n = some fb)
    (hp : framebufferAttachment attachment = true) :
    (s.setFramebuffer n (fb.setAttachment s.renderbuffers attachment target name none
      owned)).Inv := by
  refine hinv.setAttachment hfb hp ?_ fun _ h => (nomatch h)
  rw [links_setAttachment_none hinv hfb hp]
  exact hinv.linked.detach _

/-- A renderbuffer is attached: the links stay right if and only if the share group has it under
the name, and no other point holds it. -/
theorem setAttachment_some_iff (hinv : s.Inv) (hfb : s.framebuffer? n = some fb)
    (hp : framebufferAttachment attachment = true) {o : Nat}
    (hlive : (s.renderbuffers.get? o).isSome = true)
    (hsame : s' = s.setFramebuffer n
      (fb.setAttachment s.renderbuffers attachment GL_RENDERBUFFER name (some o) owned)) :
    let attachable := s.renderbuffer? name = some o ∧
      ∀ f p, framebufferAttachment p = true → s.Holds f p o → f = n ∧ p = attachment
    (attachable → s'.Inv) ∧ (s'.BackPointers → attachable) := by
  subst hsame
  have hlinks : (s.setFramebuffer n (fb.setAttachment s.renderbuffers attachment GL_RENDERBUFFER
      name (some o) owned)).links.Linked ↔
        ∀ f p, framebufferAttachment p = true → s.Holds f p o → f = n ∧ p = attachment := by
    rw [links_setAttachment_some hinv hfb hp hlive, hinv.linked.attach_iff]
    simp [slots_eq_some]
  refine ⟨fun ⟨hstored, hfree⟩ => ?_, fun hpointers => ⟨?_, ?_⟩⟩
  · grind [hinv.setAttachment]
  · have hstored := hpointers.stored n attachment o hp
    rw [Holds, point_setAttachment hfb hp (some o) n hp, if_pos ⟨rfl, rfl⟩,
      renderbuffer?_setFramebuffer] at hstored
    exact hstored rfl
  · exact hlinks.mp (linked_iff.mpr hpointers.attached)

end SetAttachment

/-! ## Changes that attach nothing -/

theorem Inv.modifyContext (hinv : s.Inv) (c : Fin k) (f : AttachmentContext → AttachmentContext) :
    (s.modifyContext c f).Inv :=
  hinv.congr rfl rfl (fun _ _ h => h) hinv.live hinv.unique hinv.fbName

theorem Inv.setGLerror (hinv : s.Inv) (c : Fin k) (error : GLenum) : (s.setGLerror c error).Inv :=
  hinv.modifyContext c _

theorem Inv.of_objectsData (hinv : s.Inv) {names : ObjectNames AttachmentData}
    (hdata : names.objectsData = s.names.objectsData) :
    ({ s with names } : SharedFramebuffers k).Inv := by
  have hrenderbuffer : ({ s with names } : SharedFramebuffers k).renderbuffer? =
      s.renderbuffer? := by grind [renderbuffer?, ShareGroup.getObjectData]
  have hframebuffer : ({ s with names } : SharedFramebuffers k).framebuffer? =
      s.framebuffer? := by grind [framebuffer?, ShareGroup.getObjectData]
  refine hinv.congr ?_ rfl ?_ ?_ ?_ ?_
  · funext f p
    rw [point, hframebuffer, point]
  · rw [hrenderbuffer]
    exact fun _ _ h => h
  · rw [hrenderbuffer]
    exact hinv.live
  · rw [hrenderbuffer]
    exact hinv.unique
  · rw [hframebuffer]
    exact hinv.fbName

theorem attachedTo_insert (heap : Registry RenderbufferData) :
    attachedTo (heap.insert .new) = attachedTo heap := by
  funext o
  rw [attachedTo, attachedTo, Registry.get?_insert]
  split
  · rename_i heq
    rw [heq, Registry.get?_next]
    rfl
  · rfl

theorem isSome_insert (heap : Registry RenderbufferData) {o : Nat}
    (h : (heap.get? o).isSome = true) : ((heap.insert .new).get? o).isSome = true := by
  rw [Registry.get?_insert]
  split
  · rfl
  · exact h

theorem Inv.newRenderbuffer (hinv : s.Inv) : s.newRenderbuffer.1.Inv :=
  hinv.congr rfl (attachedTo_insert s.renderbuffers) (fun _ _ h => h)
    (fun name o h => isSome_insert s.renderbuffers (hinv.live name o h)) hinv.unique hinv.fbName

theorem isSome_newRenderbuffer (s : SharedFramebuffers k) :
    (s.newRenderbuffer.1.renderbuffers.get? s.newRenderbuffer.2).isSome = true := by
  have hget := s.renderbuffers.get?_insert .new s.renderbuffers.next
  rw [if_pos rfl] at hget
  exact congrArg Option.isSome hget

theorem Inv.ne_next (hinv : s.Inv) {name : GLuint} {o : Nat} (h : s.renderbuffer? name = some o) :
    o ≠ s.renderbuffers.next := by
  obtain ⟨rb, hrb⟩ := Option.isSome_iff_exists.mp (hinv.live name o h)
  exact Nat.ne_of_lt (Registry.lt_next_of_get? hrb)

/-- A name keeps the data that it has. -/
@[grind =] theorem renderbuffer?_insertRenderbuffer (s : SharedFramebuffers k) (name name' : GLuint)
    (o : Nat) : (s.insertRenderbuffer name o).renderbuffer? name' =
      if name' = name ∧ s.names.getObjectData .RENDERBUFFER (localName name) = none then some o
      else s.renderbuffer? name' := by
  have hdata := s.names.getObjectData_insertObjectData .RENDERBUFFER (localName name)
    (localName name') (.RenderbufferData o)
  have hsame : (s.insertRenderbuffer name o).names.getObjectData .RENDERBUFFER (localName name') =
      (s.names.insertObjectData .RENDERBUFFER (localName name)
        (.RenderbufferData o)).getObjectData .RENDERBUFFER (localName name') := rfl
  rw [renderbuffer?, hsame, hdata]
  by_cases hname : name' = name
  · subst hname
    rw [if_pos rfl, renderbuffer?]
    cases hold : s.names.getObjectData .RENDERBUFFER (localName name') with
    | none =>
        rw [if_pos ⟨rfl, rfl⟩]
        rfl
    | some data => simp
  · grind [renderbuffer?]

@[simp] theorem framebuffer?_insertRenderbuffer (s : SharedFramebuffers k) (name : GLuint)
    (o : Nat) :
    (s.insertRenderbuffer name o).framebuffer? = s.framebuffer? := by
  funext name'
  have hne : NamedObjectType.FRAMEBUFFER ≠ .RENDERBUFFER := fun h => (nomatch h)
  exact congrArg (Option.bind · AttachmentData.framebuffer?)
    (s.names.getObjectData_insertObjectData_of_ne hne (localName name) (localName name')
      (.RenderbufferData o))

theorem Inv.insertRenderbuffer (hinv : s.Inv) {o : Nat}
    (hlive : (s.renderbuffers.get? o).isSome = true)
    (hfresh : ∀ name, s.renderbuffer? name ≠ some o) (name : GLuint) :
    (s.insertRenderbuffer name o).Inv := by
  have hold : ∀ name' o', (s.insertRenderbuffer name o).renderbuffer? name' = some o' →
      (name' = name ∧ o' = o) ∨ s.renderbuffer? name' = some o' := by
    grind
  refine hinv.congr ?_ rfl (fun name' o' h => ?_) (fun name' o' h => ?_)
    (fun name' name'' o' h h' => ?_) ?_
  · funext f p
    rw [point, framebuffer?_insertRenderbuffer, point]
  · grind [renderbuffer?]
  · rcases hold name' o' h with ⟨-, rfl⟩ | h
    · exact hlive
    · exact hinv.live name' o' h
  · grind [hinv.unique]
  · rw [framebuffer?_insertRenderbuffer]
    exact hinv.fbName

/-- A name gets data of its own, or keeps what it has. -/
theorem Inv.storeRenderbuffer (hinv : s.Inv) (name : GLuint) :
    (s.newRenderbuffer.1.insertRenderbuffer name s.newRenderbuffer.2).Inv :=
  hinv.newRenderbuffer.insertRenderbuffer s.isSome_newRenderbuffer
    (fun _ h => hinv.ne_next h rfl) name

@[simp] theorem renderbuffer?_insertFramebuffer (s : SharedFramebuffers k) (name : GLuint) :
    (s.insertFramebuffer name).renderbuffer? = s.renderbuffer? := by
  funext name'
  have hne : NamedObjectType.RENDERBUFFER ≠ .FRAMEBUFFER := fun h => (nomatch h)
  exact congrArg (Option.bind · AttachmentData.renderbuffer?)
    (s.names.getObjectData_insertObjectData_of_ne hne (localName name) (localName name')
      (.FramebufferData (.new name)))

theorem Inv.insertFramebuffer (hinv : s.Inv) (name : GLuint) : (s.insertFramebuffer name).Inv := by
  have hframebuffer : ∀ f, (s.insertFramebuffer name).framebuffer? f = s.framebuffer? f ∨
      f = name ∧ s.framebuffer? f = none ∧
        (s.insertFramebuffer name).framebuffer? f = some (.new name) := by
    intro f
    have hdata := s.names.getObjectData_insertObjectData .FRAMEBUFFER (localName name)
      (localName f) (.FramebufferData (.new name))
    have hsame : (s.insertFramebuffer name).names.getObjectData .FRAMEBUFFER (localName f) =
        (s.names.insertObjectData .FRAMEBUFFER (localName name)
          (.FramebufferData (.new name))).getObjectData .FRAMEBUFFER (localName f) := rfl
    rw [framebuffer?, framebuffer?, hsame, hdata]
    by_cases hf : f = name
    · subst hf
      rw [if_pos rfl]
      cases hold : s.names.getObjectData .FRAMEBUFFER (localName f) with
      | none => exact .inr ⟨rfl, rfl, rfl⟩
      | some data => exact .inl rfl
    · grind
  refine hinv.congr ?_ rfl ?_ ?_ ?_ fun f fb hfb => ?_
  · funext f p
    rcases hframebuffer f with hsame | ⟨-, hnone, hnew⟩
    · rw [point, hsame, point]
    · rw [point, hnew, point, hnone]
      rfl
  · rw [renderbuffer?_insertFramebuffer]
    exact fun _ _ h => h
  · rw [renderbuffer?_insertFramebuffer]
    exact hinv.live
  · rw [renderbuffer?_insertFramebuffer]
    exact hinv.unique
  · rcases hframebuffer f with hsame | ⟨hf, -, hnew⟩
    · grind [hinv.fbName]
    · rw [hnew] at hfb
      rw [← Option.some.inj hfb, hf]
      rfl

/-- The framebuffer's data changes, but neither its name nor its points. -/
theorem Inv.setFramebuffer_congr {n : GLuint}
    {changed : FramebufferData × Registry RenderbufferData}
    (hinv : (s.setFramebuffer n changed).Inv) {fb : FramebufferData}
    (hname : fb.fbName = changed.1.fbName) (hpoints : fb.attachPoints = changed.1.attachPoints) :
    (s.setFramebuffer n (fb, changed.2)).Inv := by
  have hrenderbuffer : (s.setFramebuffer n (fb, changed.2)).renderbuffer? =
      (s.setFramebuffer n changed).renderbuffer? := by simp
  refine hinv.congr ?_ rfl ?_ ?_ ?_ fun f fb' hfb' => ?_
  · grind [point]
  · rw [hrenderbuffer]
    exact fun _ _ h => h
  · rw [hrenderbuffer]
    exact hinv.live
  · rw [hrenderbuffer]
    exact hinv.unique
  · have hold := hinv.fbName f
    rw [framebuffer?_setFramebuffer] at hfb' hold
    grind

/-- Storing the data of a framebuffer again changes nothing. -/
theorem Inv.setFramebuffer_self (hinv : s.Inv) {n : GLuint} {fb : FramebufferData}
    (hfb : s.framebuffer? n = some fb) : (s.setFramebuffer n (fb, s.renderbuffers)).Inv := by
  have hframebuffer : (s.setFramebuffer n (fb, s.renderbuffers)).framebuffer? =
      s.framebuffer? := by grind
  refine hinv.congr ?_ rfl ?_ ?_ ?_ ?_
  · funext f p
    rw [point, point, hframebuffer]
  · rw [renderbuffer?_setFramebuffer]
    exact fun _ _ h => h
  · rw [renderbuffer?_setFramebuffer]
    exact hinv.live
  · rw [renderbuffer?_setFramebuffer]
    exact hinv.unique
  · rw [hframebuffer]
    exact hinv.fbName

theorem Inv.validate (hinv : s.Inv) {n : GLuint} {fb : FramebufferData}
    (hfb : s.framebuffer? n = some fb) (attached : Bool) (tex : GLuint) :
    (s.setFramebuffer n (fb.validate s.renderbuffers attached tex)).Inv := by
  have hsame := hinv.setFramebuffer_self hfb
  unfold FramebufferData.validate
  split
  · split
    · have hset : (s.setFramebuffer n (fb.setAttachment s.renderbuffers GL_COLOR_ATTACHMENT0
          GL_TEXTURE_2D tex none true)).Inv := hinv.setAttachment_none hfb rfl
      exact hset.setFramebuffer_congr rfl rfl
    · exact hsame
  · exact hsame.setFramebuffer_congr rfl rfl

/-! ## Calls -/

theorem modifyFramebuffer_eq (s : SharedFramebuffers k) (c : Fin k)
    (f : FramebufferData → Registry RenderbufferData →
      FramebufferData × Registry RenderbufferData) :
    s.modifyFramebuffer c f = (s.framebuffer? (s.contexts c).framebufferBinding).elim s
      fun fb => s.setFramebuffer (s.contexts c).framebufferBinding (f fb s.renderbuffers) := by
  unfold modifyFramebuffer
  grind

/-- A change of the framebuffer that is bound keeps the invariant if that of its data does. -/
theorem Inv.modifyFramebuffer (hinv : s.Inv) (c : Fin k)
    {f : FramebufferData → Registry RenderbufferData →
      FramebufferData × Registry RenderbufferData}
    (hf : ∀ fb, s.framebuffer? (s.contexts c).framebufferBinding = some fb →
      (s.setFramebuffer (s.contexts c).framebufferBinding (f fb s.renderbuffers)).Inv) :
    (s.modifyFramebuffer c f).Inv := by
  rw [modifyFramebuffer_eq]
  cases hfb : s.framebuffer? (s.contexts c).framebufferBinding with
  | none => exact hinv
  | some fb => exact hf fb hfb

theorem Inv.drawValidate (hinv : s.Inv) (c : Fin k) (attached : Bool) (tex : GLuint) :
    (s.drawValidate c attached tex).Inv := by
  unfold SharedFramebuffers.drawValidate
  grind [hinv.modifyFramebuffer, hinv.validate]

theorem Inv.glFramebufferTexture2D (hinv : s.Inv) (c : Fin k)
    (target attachment textarget : GLenum) (texture : GLuint) (level : Int) (gen : GLuint) :
    (s.glFramebufferTexture2D c target attachment textarget texture level gen).Inv := by
  unfold SharedFramebuffers.glFramebufferTexture2D
  split
  · exact hinv.setGLerror c _
  · split
    · exact hinv.setGLerror c _
    · rename_i hvalid
      have hp : framebufferAttachment attachment = true := by grind
      split
      · exact hinv.setGLerror c _
      · dsimp only
        split
        · have hinv' : (s.genName .TEXTURE texture gen).Inv := hinv.of_objectsData rfl
          exact hinv'.modifyFramebuffer c fun _ hfb => hinv'.setAttachment_none hfb hp
        · exact hinv.modifyFramebuffer c fun _ hfb => hinv.setAttachment_none hfb hp

theorem Inv.glEGLImageTargetRenderbufferStorageOES (hinv : s.Inv) (c : Fin k) (target : GLenum)
    (image : Option EglImage) :
    (s.glEGLImageTargetRenderbufferStorageOES c target image).Inv := by
  unfold SharedFramebuffers.glEGLImageTargetRenderbufferStorageOES
  split
  · exact hinv.setGLerror c _
  · split
    · exact hinv.setGLerror c _
    · dsimp only
      split
      · exact hinv.setGLerror c _
      · split
        · exact hinv.setGLerror c _
        · refine hinv.congr rfl ?_ (fun _ _ h => h) (fun name o h => ?_) hinv.unique hinv.fbName
          · grind [attachedTo_modifyRenderbuffer]
          · dsimp only
            rw [get?_modifyRenderbuffer]
            split
            · grind [hinv.live]
            · exact hinv.live name o h

theorem Inv.glBindRenderbuffer (hinv : s.Inv) (c : Fin k) (target : GLenum)
    (renderbuffer gen : GLuint) : (s.glBindRenderbuffer c target renderbuffer gen).Inv := by
  unfold SharedFramebuffers.glBindRenderbuffer
  split
  · exact hinv.setGLerror c _
  · split
    · exact hinv.setGLerror c _
    · refine Inv.modifyContext ?_ c _
      split
      · have hinv' : (s.genName .RENDERBUFFER renderbuffer gen).Inv := hinv.of_objectsData rfl
        exact hinv'.storeRenderbuffer renderbuffer
      · exact hinv

theorem Inv.glBindFramebuffer (hinv : s.Inv) (c : Fin k) (target : GLenum)
    (framebuffer gen : GLuint) : (s.glBindFramebuffer c target framebuffer gen).Inv := by
  unfold SharedFramebuffers.glBindFramebuffer
  split
  · exact hinv.setGLerror c _
  · split
    · exact hinv.setGLerror c _
    · refine Inv.modifyContext ?_ c _
      split
      · have hinv' : (s.genName .FRAMEBUFFER framebuffer gen).Inv := hinv.of_objectsData rfl
        exact hinv'.insertFramebuffer framebuffer
      · exact hinv

theorem Inv.genNames (hinv : s.Inv)
    {turn : SharedFramebuffers k → GLuint → SharedFramebuffers k × GLuint}
    (hturn : ∀ s gen, s.Inv → (turn s gen).1.Inv) (c : Fin k) (n : Int) (gens : Nat → GLuint) :
    (genNames turn s c n gens).1.Inv := by
  unfold SharedFramebuffers.genNames
  split
  · exact hinv.setGLerror c _
  · split
    · exact hinv.setGLerror c _
    · exact List.foldlRecOn
        (motive := fun r : SharedFramebuffers k × List GLuint => r.1.Inv) _ _ hinv
        fun r hr i _ => hturn r.1 (gens i) hr

theorem Inv.genRenderbuffer (hinv : s.Inv) (gen : GLuint) : (s.genRenderbuffer gen).1.Inv := by
  have hinv' : ({ s with names := (s.names.genLocalName .RENDERBUFFER gen).1 } :
      SharedFramebuffers k).Inv := hinv.of_objectsData rfl
  exact hinv'.storeRenderbuffer _

theorem Inv.genFramebuffer (hinv : s.Inv) (gen : GLuint) : (s.genFramebuffer gen).1.Inv := by
  have hinv' : ({ s with names := (s.names.genLocalName .FRAMEBUFFER gen).1 } :
      SharedFramebuffers k).Inv := hinv.of_objectsData rfl
  exact hinv'.insertFramebuffer _

/-! ## Attaching a renderbuffer -/

/-- The renderbuffer is one that no other point holds, or GLES_V2 makes one that has no data. -/
def Attachable (s : SharedFramebuffers k) (c : Fin k) (attachment : GLenum)
    (renderbuffer : GLuint) : Prop :=
  (s.isObject .RENDERBUFFER renderbuffer = true → ∀ o, s.renderbuffer? renderbuffer = some o →
    ∀ f p, framebufferAttachment p = true → s.Holds f p o →
      f = (s.contexts c).framebufferBinding ∧ p = attachment) ∧
  (s.isObject .RENDERBUFFER renderbuffer = false → (s.contexts c).version = .GLES_V2 ∧
    s.names.getObjectData .RENDERBUFFER (localName renderbuffer) = none)

/-- What `glFramebufferRenderbuffer` finds or makes: `Attachable` says whether the share group has
it, and no other point holds it. -/
structure Found (s s' : SharedFramebuffers k) (c : Fin k) (attachment : GLenum)
    (renderbuffer : GLuint) (obj : Option Nat) : Prop where
  inv : s'.Inv
  contexts : s'.contexts = s.contexts
  framebuffer? : s'.framebuffer? = s.framebuffer?
  none : obj = none → renderbuffer ≠ 0 → s.Attachable c attachment renderbuffer
  some : ∀ o, obj = some o → renderbuffer ≠ 0 ∧ (s'.renderbuffers.get? o).isSome = true ∧
    (s.Attachable c attachment renderbuffer ↔ s'.renderbuffer? renderbuffer = some o ∧
      ∀ f p, framebufferAttachment p = true → s'.Holds f p o →
        f = (s.contexts c).framebufferBinding ∧ p = attachment)

theorem not_holds_next (hinv : s.Inv) {f : GLuint} {p : GLenum}
    (hp : framebufferAttachment p = true) : ¬s.Holds f p s.renderbuffers.next := by
  intro hholds
  grind [Registry.get?_next, hinv.pointers.attached]

theorem renderbufferObject_found (hinv : s.Inv) (c : Fin k) (attachment : GLenum)
    (renderbuffer gen : GLuint) :
    Found s (s.renderbufferObject c renderbuffer gen).1 c attachment renderbuffer
      (s.renderbufferObject c renderbuffer gen).2 := by
  unfold renderbufferObject
  split
  · rename_i hne
    split
    · rename_i hnot
      have hnot : s.isObject .RENDERBUFFER renderbuffer = false := by grind
      have hgen : (s.genName .RENDERBUFFER renderbuffer gen).Inv := hinv.of_objectsData rfl
      dsimp only [newRenderbuffer]
      split
      · -- The data that GLES_CM attaches is not what it stores.
        rename_i hversion
        have hstored := hgen.newRenderbuffer.storeRenderbuffer renderbuffer
        refine ⟨hstored, rfl, framebuffer?_insertRenderbuffer _ _ _, fun h => (nomatch h), ?_⟩
        rintro o heq
        cases heq
        refine ⟨hne, isSome_insert _ (isSome_newRenderbuffer _), fun hattachable => ?_, ?_⟩
        · obtain ⟨hv2, -⟩ := hattachable.2 hnot
          cases hversion.symm.trans hv2
        · rintro ⟨hsome, -⟩
          rw [renderbuffer?_insertRenderbuffer] at hsome
          split at hsome
          · exact absurd (Option.some.inj hsome) (Nat.succ_ne_self _)
          · exact absurd rfl (hgen.ne_next hsome)
      · rename_i hversion
        have hv2 : (s.contexts c).version = .GLES_V2 := by
          cases hv : (s.contexts c).version with
          | GLES_CM => exact absurd hv hversion
          | GLES_V2 => rfl
        refine ⟨hgen.storeRenderbuffer renderbuffer, rfl, framebuffer?_insertRenderbuffer _ _ _,
          fun h => (nomatch h), ?_⟩
        rintro o heq
        cases heq
        refine ⟨hne, isSome_newRenderbuffer _, ?_⟩
        have hfree : ∀ f p, framebufferAttachment p = true →
            ¬((s.genName .RENDERBUFFER renderbuffer gen).newRenderbuffer.1.insertRenderbuffer
              renderbuffer s.renderbuffers.next).Holds f p s.renderbuffers.next := by
          intro f p hp hholds
          rw [Holds, point, framebuffer?_insertRenderbuffer] at hholds
          exact not_holds_next hinv hp hholds
        have hstored : ((s.genName .RENDERBUFFER renderbuffer gen).newRenderbuffer.1.insertRenderbuffer
            renderbuffer s.renderbuffers.next).renderbuffer? renderbuffer =
              some s.renderbuffers.next ↔
            s.names.getObjectData .RENDERBUFFER (localName renderbuffer) = none := by
          rw [renderbuffer?_insertRenderbuffer]
          constructor
          · intro hsome
            split at hsome
            · rename_i hnone
              exact hnone.2
            · exact absurd rfl (hgen.ne_next hsome)
          · exact fun hnone => if_pos ⟨rfl, hnone⟩
        constructor
        · intro hattachable
          exact ⟨hstored.mpr (hattachable.2 hnot).2,
            fun f p hp hholds => absurd hholds (hfree f p hp)⟩
        · rintro ⟨hsome, -⟩
          refine ⟨fun hobject => ?_, fun _ => ⟨hv2, hstored.mp hsome⟩⟩
          exact absurd (hnot.symm.trans hobject) Bool.false_ne_true
    · rename_i hobject
      have hobject : s.isObject .RENDERBUFFER renderbuffer = true := by grind
      have hnot : ¬s.isObject .RENDERBUFFER renderbuffer = false := by simp [hobject]
      refine ⟨hinv, rfl, rfl, fun hnone _ => ⟨fun _ o ho => ?_, fun h => absurd h hnot⟩,
        fun o ho => ⟨hne, hinv.live _ o ho, ?_⟩⟩
      · exact absurd (hnone.symm.trans ho) fun h => (nomatch h)
      · constructor
        · exact fun hattachable => ⟨ho, hattachable.1 hobject o ho⟩
        · rintro ⟨-, hfree⟩
          refine ⟨fun _ o' ho' => ?_, fun h => absurd h hnot⟩
          grind
  · rename_i hzero
    refine ⟨hinv, rfl, rfl, fun _ hne => absurd hne hzero, fun _ h => (nomatch h)⟩

/-! ## Runs -/

def KeepsAttachments (s : SharedFramebuffers k) : Fin k × AttachmentCall → Prop
  | (c, .glFramebufferRenderbuffer target attachment renderbuffertarget renderbuffer _) =>
      (s.contexts c).hasFramebuffers = true → target = GL_FRAMEBUFFER →
        framebufferAttachment attachment = true → renderbuffertarget = GL_RENDERBUFFER →
          (s.framebuffer? (s.contexts c).framebufferBinding).isSome = true → renderbuffer ≠ 0 →
            s.Attachable c attachment renderbuffer
  | _ => True

theorem glFramebufferRenderbuffer_spec (hinv : s.Inv) (c : Fin k)
    (target attachment renderbuffertarget : GLenum) (renderbuffer gen : GLuint) :
    let call := AttachmentCall.glFramebufferRenderbuffer target attachment renderbuffertarget
      renderbuffer gen
    (s.KeepsAttachments (c, call) → (s.step (c, call)).Inv) ∧
      ((s.step (c, call)).BackPointers → s.KeepsAttachments (c, call)) := by
  dsimp only [step, KeepsAttachments]
  unfold glFramebufferRenderbuffer
  split
  · grind [hinv.setGLerror]
  · split
    · grind [hinv.setGLerror]
    · rename_i hhas hvalid
      rw [Bool.not_eq_true', Bool.not_eq_false] at hhas
      rw [Bool.not_eq_true', Bool.not_eq_false, Bool.and_eq_true, Bool.and_eq_true,
        decide_eq_true_eq, decide_eq_true_eq] at hvalid
      obtain ⟨⟨rfl, hp⟩, rfl⟩ := hvalid
      have hfound := renderbufferObject_found hinv c attachment renderbuffer gen
      rcases hobject : s.renderbufferObject c renderbuffer gen with ⟨s', obj⟩
      rw [hobject] at hfound
      dsimp only at hfound ⊢
      rw [modifyFramebuffer_eq, hfound.contexts, hfound.framebuffer?]
      cases hfb : s.framebuffer? (s.contexts c).framebufferBinding with
      | none => exact ⟨fun _ => hfound.inv, fun _ _ _ _ _ hsome => (nomatch hsome)⟩
      | some fb =>
          have hfb' : s'.framebuffer? (s.contexts c).framebufferBinding = some fb := by
            rw [hfound.framebuffer?, hfb]
          rw [Option.elim_some]
          cases hobj : obj with
          | none => grind [hfound.inv.setAttachment_none, hfound.none]
          | some o =>
              obtain ⟨hne, hlive, hiff⟩ := hfound.some o hobj
              grind [setAttachment_some_iff, hfound.inv]

theorem step_spec (hinv : s.Inv) (event : Fin k × AttachmentCall) :
    (s.KeepsAttachments event → (s.step event).Inv) ∧
      ((s.step event).BackPointers → s.KeepsAttachments event) := by
  obtain ⟨c, call⟩ := event
  cases call with
  | glGenRenderbuffers n gens =>
      exact ⟨fun _ => hinv.genNames (fun _ gen hs => hs.genRenderbuffer gen) c n gens,
        fun _ => trivial⟩
  | glGenFramebuffers n gens =>
      exact ⟨fun _ => hinv.genNames (fun _ gen hs => hs.genFramebuffer gen) c n gens,
        fun _ => trivial⟩
  | glBindRenderbuffer target renderbuffer gen =>
      exact ⟨fun _ => hinv.glBindRenderbuffer c target renderbuffer gen, fun _ => trivial⟩
  | glBindFramebuffer target framebuffer gen =>
      exact ⟨fun _ => hinv.glBindFramebuffer c target framebuffer gen, fun _ => trivial⟩
  | glFramebufferRenderbuffer target attachment renderbuffertarget renderbuffer gen =>
      grind [glFramebufferRenderbuffer_spec]
  | glFramebufferTexture2D target attachment textarget texture level gen =>
      exact ⟨fun _ => hinv.glFramebufferTexture2D c target attachment textarget texture level gen,
        fun _ => trivial⟩
  | glEGLImageTargetRenderbufferStorageOES target image =>
      exact ⟨fun _ => hinv.glEGLImageTargetRenderbufferStorageOES c target image,
        fun _ => trivial⟩
  | drawValidate attached tex =>
      exact ⟨fun _ => hinv.drawValidate c attached tex, fun _ => trivial⟩

/-- As long as renderbuffers are attached to one point at a time, and GLES_CM attaches none that is
no object yet, each renderbuffer names the point that holds it, which holds what the share group
has for its name. A call keeps this if and only if it meets the condition. -/
theorem backPointers_of_keepsAttachments {contexts : Fin k → AttachmentContext}
    (h : Run.Reach (Run.total step) KeepsAttachments (initial contexts) s) :
    s.BackPointers ∧ ∀ event, (s.step event).BackPointers ↔ s.KeepsAttachments event := by
  have hinv : s.Inv := h.invariant_total (I := Inv) (initial_inv contexts)
    fun t event hinv hkeeps => (step_spec hinv event).1 hkeeps
  refine ⟨hinv.pointers, fun event => ?_⟩
  obtain ⟨hkeeps, hpointers⟩ := step_spec hinv event
  exact ⟨hpointers, fun h => (hkeeps h).pointers⟩

/-! ## Runs with both versions -/

def attachmentContexts (c : Fin 2) : AttachmentContext :=
  .new (if c.val = 0 then .GLES_CM else .GLES_V2) true

/-- Nothing is attached yet. -/
def keepsAttachmentsTest (_ : SharedFramebuffers k) (event : Fin k × AttachmentCall) : Bool :=
  match event.2 with
  | .glFramebufferRenderbuffer .. => false
  | _ => true

theorem keepsAttachmentsTest_sound (s : SharedFramebuffers k) (event : Fin k × AttachmentCall)
    (h : keepsAttachmentsTest s event = true) : s.KeepsAttachments event := by
  obtain ⟨c, call⟩ := event
  cases call with
  | glFramebufferRenderbuffer => cases h
  | _ => trivial

/-- A renderbuffer that names no point is attached to none. -/
theorem attachable_of_unattached (hinv : s.Inv) {renderbuffer : GLuint}
    (hobject : s.isObject .RENDERBUFFER renderbuffer = true)
    (hnone : ((s.renderbuffer? renderbuffer).bind s.renderbuffers.get?).all
      (fun rb => !framebufferAttachment rb.attachedPoint) = true) (c : Fin k)
    (attachment : GLenum) : s.Attachable c attachment renderbuffer := by
  refine ⟨fun _ o ho f p hp hholds => ?_, fun hnot => ?_⟩
  · grind [hinv.pointers.attached]
  · exact absurd (hnot.symm.trans hobject) Bool.false_ne_true

/-- A renderbuffer that GLES_CM made is attached in GLES_V2. -/
theorem backPointers_of_keepsAttachments_run :
    ∃ s : SharedFramebuffers 2, s.Holds 3 GL_DEPTH_ATTACHMENT 0 ∧ s.BackPointers ∧
      ∀ event, (s.step event).BackPointers ↔ s.KeepsAttachments event := by
  let attach : Fin 2 × AttachmentCall :=
    (1, .glFramebufferRenderbuffer GL_FRAMEBUFFER GL_DEPTH_ATTACHMENT GL_RENDERBUFFER 5 1)
  have hrun : Run.check (Run.total step) keepsAttachmentsTest
      (fun s : SharedFramebuffers 2 => s.isObject .RENDERBUFFER 5 = true ∧
        ((s.renderbuffer? 5).bind s.renderbuffers.get?).all
          (fun rb => !framebufferAttachment rb.attachedPoint) = true ∧
        ((s.step attach).point 3 GL_DEPTH_ATTACHMENT).obj = some 0)
      (initial attachmentContexts)
      [(1, .glBindFramebuffer GL_FRAMEBUFFER 3 1), (0, .glBindRenderbuffer GL_RENDERBUFFER 5 1)] =
        true := by
    decide +kernel
  obtain ⟨s, hreach, hs⟩ := Run.exists_reach_of_check keepsAttachmentsTest_sound hrun
  obtain ⟨hobject, hnone, hholds⟩ := of_decide_eq_true hs
  have hinv : s.Inv := hreach.invariant_total (I := Inv) (initial_inv attachmentContexts)
    fun t event hinv hkeeps => (step_spec hinv event).1 hkeeps
  have hkeeps : s.KeepsAttachments attach := fun _ _ _ _ _ _ =>
    attachable_of_unattached hinv hobject hnone 1 GL_DEPTH_ATTACHMENT
  exact ⟨s.step attach, hholds, backPointers_of_keepsAttachments (.step hreach hkeeps rfl)⟩

/-- GLES_CM attaches other data than it stores for a renderbuffer that is no object yet. -/
theorem attached_not_stored :
    ∃ s : SharedFramebuffers 2,
      Run.Reach (Run.total step) (fun _ _ => True) (initial attachmentContexts) s ∧
        s.Holds 3 GL_DEPTH_ATTACHMENT 0 ∧ s.renderbuffer? 5 = some 1 ∧ ¬s.BackPointers := by
  have hrun : Run.check (Run.total step) (fun _ _ => true)
      (fun s : SharedFramebuffers 2 => (s.point 3 GL_DEPTH_ATTACHMENT).obj = some 0 ∧
        (s.point 3 GL_DEPTH_ATTACHMENT).name = 5 ∧ s.renderbuffer? 5 = some 1)
      (initial attachmentContexts)
      [(0, .glBindFramebuffer GL_FRAMEBUFFER 3 1),
        (0, .glFramebufferRenderbuffer GL_FRAMEBUFFER GL_DEPTH_ATTACHMENT GL_RENDERBUFFER 5 1)] =
          true := by
    decide +kernel
  obtain ⟨s, hreach, hs⟩ := Run.exists_reach_of_check (fun _ _ _ => trivial) hrun
  obtain ⟨hholds, hname, hstored⟩ := of_decide_eq_true hs
  refine ⟨s, hreach, hholds, hstored, fun hpointers => ?_⟩
  have hsame := hpointers.stored 3 GL_DEPTH_ATTACHMENT 0 rfl hholds
  rw [hname, hstored] at hsame
  cases hsame

end SharedFramebuffers

end AndroidRenderer.Translator
