import AndroidRenderer.Translator.BufferObjects
import AndroidRenderer.Translator.TextureBindings

/-!
# Texture units of a context

`init` allocates the states of `getMaxTexUnits()` texture units, and in GLES_CM as many texture
coordinate arrays. A call selects a unit by an enum, which `textureEnum` checks, and the calls
behind it use the index without a check: `glBindTexture` and `glEnable` that of the active
texture, the pointer functions and the draws that of the client's active texture.

None of the calls here binds a buffer, so that arrays are the application's.
-/

namespace AndroidRenderer.Translator

/-- A context with `n` texture units and `attribs` vertex attributes; `enabled` is the other part
of `m_texState`. `texCoordArray` is the element of `m_texCoords` that
`m_map[GL_TEXTURE_COORD_ARRAY]` points to. Both indices of the client stay 0 in GLES_V2. -/
structure UnitContext (attribs n : Nat) where
  textures : Context n
  enabled : Fin n → TextureTarget → Bool
  clientActiveTexture : GLuint
  texCoordArray : GLuint
  pointers : ArrayId attribs n → ArrayPointer

namespace UnitContext

variable {attribs n : Nat}

def version (ctx : UnitContext attribs n) : GLESVersion := ctx.textures.version

def setGLerror (ctx : UnitContext attribs n) (error : GLenum) : UnitContext attribs n :=
  { ctx with textures := ctx.textures.setGLerror error }

/-- The array that `m_map[GL_TEXTURE_COORD_ARRAY]` points to. -/
def texCoords (ctx : UnitContext attribs n) : Except MemoryFault (ArrayId attribs n) :=
  if h : ctx.texCoordArray.toNat < n then .ok (.texCoord ⟨ctx.texCoordArray.toNat, h⟩)
  else .error .outOfBounds

def setClientActiveTexture (ctx : UnitContext attribs n) (tex : GLenum) : UnitContext attribs n :=
  { ctx with clientActiveTexture := tex - GL_TEXTURE0, texCoordArray := tex - GL_TEXTURE0 }

def setTextureEnabled (ctx : UnitContext attribs n) (target : GLenum) (enable : Bool) :
    Except MemoryFault (UnitContext attribs n) := do
  let unit ← ctx.textures.unit
  return { ctx with
    enabled := fun u t =>
      if u = unit ∧ t = GLTextureTargetToLocal target then enable else ctx.enabled u t }

/-- An access to `m_texState[unit - GL_TEXTURE0]`. -/
def textureUnit (unit : GLenum) : Except MemoryFault (Fin n) :=
  if h : (unit - GL_TEXTURE0).toNat < n then .ok ⟨(unit - GL_TEXTURE0).toNat, h⟩
  else .error .outOfBounds

def isTextureUnitEnabled (ctx : UnitContext attribs n) (unit : GLenum) :
    Except MemoryFault Bool := do
  let u ← textureUnit unit
  return ctx.enabled u .TEXTURE_2D || ctx.enabled u .TEXTURE_CUBE_MAP

/-- `getBindedTexture` of a unit. -/
def getBindedTexture (ctx : UnitContext attribs n) (unit target : GLenum) :
    Except MemoryFault GLuint := do
  let u ← textureUnit unit
  return ctx.textures.texState u (GLTextureTargetToLocal target)

/-! ## Arrays -/

def enableArr (ctx : UnitContext attribs n) (array : ArrayId attribs n) (enable : Bool) :
    UnitContext attribs n :=
  { ctx with
    pointers := Function.update ctx.pointers array ((ctx.pointers array).enable enable) }

def isArrEnabled (ctx : UnitContext attribs n) (array : ArrayId attribs n) : Bool :=
  (ctx.pointers array).enabled

def setPointer (ctx : UnitContext attribs n) (arrType : ArrayId attribs n) (size : Int)
    (type : GLenum) (stride : Int) (normalize : Bool) : UnitContext attribs n :=
  { ctx with
    pointers := Function.update ctx.pointers arrType
      ((ctx.pointers arrType).setArray size type stride normalize) }

/-- A pointer function of GLES_CM, with the checks of its arguments. -/
def clientPointer (ctx : UnitContext attribs n) (params types : Bool)
    (arrType : Except MemoryFault (ArrayId attribs n)) (size : Int) (type : GLenum)
    (stride : Int) : Except MemoryFault (UnitContext attribs n) :=
  if !params then .ok (ctx.setGLerror GL_INVALID_VALUE)
  else if !types then .ok (ctx.setGLerror GL_INVALID_ENUM)
  else arrType.map fun arrType => ctx.setPointer arrType size type stride false

def glVertexPointer (ctx : UnitContext attribs n) (size : Int) (type : GLenum) (stride : Int) :
    Except MemoryFault (UnitContext attribs n) :=
  ctx.clientPointer (2 ≤ size && size ≤ 4 && 0 ≤ stride)
    (type ∈ [GL_BYTE, GL_SHORT, GL_FLOAT, GL_FIXED]) (.ok .vertex) size type stride

def glNormalPointer (ctx : UnitContext attribs n) (type : GLenum) (stride : Int) :
    Except MemoryFault (UnitContext attribs n) :=
  ctx.clientPointer (0 ≤ stride) (type ∈ [GL_BYTE, GL_SHORT, GL_FLOAT, GL_FIXED]) (.ok .normal) 3
    type stride

def glColorPointer (ctx : UnitContext attribs n) (size : Int) (type : GLenum) (stride : Int) :
    Except MemoryFault (UnitContext attribs n) :=
  ctx.clientPointer (3 ≤ size && size ≤ 4 && 0 ≤ stride)
    (type ∈ [GL_UNSIGNED_BYTE, GL_FIXED, GL_FLOAT]) (.ok .color) size type stride

def glTexCoordPointer (ctx : UnitContext attribs n) (size : Int) (type : GLenum) (stride : Int) :
    Except MemoryFault (UnitContext attribs n) :=
  ctx.clientPointer (2 ≤ size && size ≤ 4 && 0 ≤ stride)
    (type ∈ [GL_BYTE, GL_SHORT, GL_FLOAT, GL_FIXED]) ctx.texCoords size type stride

def glPointSizePointerOES (ctx : UnitContext attribs n) (type : GLenum) (stride : Int) :
    Except MemoryFault (UnitContext attribs n) :=
  ctx.clientPointer (0 ≤ stride) (type ∈ [GL_FIXED, GL_FLOAT]) (.ok .pointSize) 1 type stride

/-- The arrays of `supportedArrays`. -/
def clientArray (ctx : UnitContext attribs n) (array : GLenum) :
    Except MemoryFault (Option (ArrayId attribs n)) :=
  if array = GL_VERTEX_ARRAY then .ok (some .vertex)
  else if array = GL_NORMAL_ARRAY then .ok (some .normal)
  else if array = GL_COLOR_ARRAY then .ok (some .color)
  else if array = GL_POINT_SIZE_ARRAY_OES then .ok (some .pointSize)
  else if array = GL_TEXTURE_COORD_ARRAY then ctx.texCoords.map some
  else .ok none

/-- `glEnableClientState` and `glDisableClientState` -/
def glClientState (ctx : UnitContext attribs n) (array : GLenum) (enable : Bool) :
    Except MemoryFault (UnitContext attribs n) :=
  (ctx.clientArray array).map fun arrType =>
    arrType.elim (ctx.setGLerror GL_INVALID_ENUM) fun arrType => ctx.enableArr arrType enable

def glVertexAttribPointer (ctx : UnitContext attribs n) (indx : GLuint) (size : Int)
    (type : GLenum) (normalized : Bool) (stride : Int) : UnitContext attribs n :=
  if h : indx.toNat < attribs then
    ctx.setPointer (.vertexAttrib ⟨indx.toNat, h⟩) size
      (if type = GL_HALF_FLOAT_OES then GL_HALF_FLOAT else type) stride normalized
  else ctx.setGLerror GL_INVALID_VALUE

/-- `glEnableVertexAttribArray` and `glDisableVertexAttribArray` -/
def glVertexAttribArray (ctx : UnitContext attribs n) (index : GLuint) (enable : Bool) :
    UnitContext attribs n :=
  if h : index.toNat < attribs then ctx.enableArr (.vertexAttrib ⟨index.toNat, h⟩) enable
  else ctx.setGLerror GL_INVALID_VALUE

/-! ## Units -/

def glClientActiveTexture (ctx : UnitContext attribs n) (texture : GLenum) :
    UnitContext attribs n :=
  if !textureEnum texture n then ctx.setGLerror GL_INVALID_ENUM
  else ctx.setClientActiveTexture texture

/-- `glEnable` and `glDisable`. Those of GLES_V2 are the driver's alone. -/
def glEnable (ctx : UnitContext attribs n) (cap : GLenum) (enable : Bool) :
    Except MemoryFault (UnitContext attribs n) :=
  if ctx.version = .GLES_CM ∧ (cap = GL_TEXTURE_2D ∨ cap = GL_TEXTURE_CUBE_MAP) then
    ctx.setTextureEnabled cap enable
  else .ok ctx

/-! ## Draws -/

/-- A turn of the loop of `setupArraysPointers` over the units, with the arrays that the driver has
got. -/
def setupTexCoords (r : UnitContext attribs n × List (ArrayId attribs n)) (i : Nat) :
    Except MemoryFault (UnitContext attribs n × List (ArrayId attribs n)) := do
  let ctx := r.1.setClientActiveTexture (GL_TEXTURE0 + UInt32.ofNat i)
  let array ← ctx.texCoords
  return (ctx, if ctx.isArrEnabled array then r.2 ++ [array] else r.2)

/-- `setupArraysPointers`, with the arrays that the driver gets. The first loop of GLES_CM looks at
the texture coordinates, too, and leaves them to the second. -/
def setupArraysPointers (ctx : UnitContext attribs n) :
    Except MemoryFault (UnitContext attribs n × List (ArrayId attribs n)) :=
  if ctx.version = .GLES_CM then do
    let _ ← ctx.texCoords
    let arrays := [.vertex, .normal, .color, .pointSize].filter ctx.isArrEnabled
    let activeTexture := ctx.clientActiveTexture + GL_TEXTURE0
    let r ← (List.range n).foldlM setupTexCoords (ctx, arrays)
    return (r.1.setClientActiveTexture activeTexture, r.2)
  else .ok (ctx, ((List.finRange attribs).map .vertexAttrib).filter ctx.isArrEnabled)

/-- `glDrawArrays` and `glDrawElements`, behind the check of the type of the indices. -/
def glDraw (ctx : UnitContext attribs n) (mode : GLenum) (count : Int) (types : Bool) :
    Except MemoryFault (UnitContext attribs n) :=
  if count < 0 then .ok (ctx.setGLerror GL_INVALID_VALUE)
  else if !(drawMode mode && types) then .ok (ctx.setGLerror GL_INVALID_ENUM)
  else if ctx.version = .GLES_CM ∧ !ctx.isArrEnabled .vertex then .ok ctx
  else ctx.setupArraysPointers.map Prod.fst

def glDrawArrays (ctx : UnitContext attribs n) (mode : GLenum) (count : Int) :
    Except MemoryFault (UnitContext attribs n) :=
  ctx.glDraw mode count true

def glDrawElements (ctx : UnitContext attribs n) (mode : GLenum) (count : Int) (type : GLenum) :
    Except MemoryFault (UnitContext attribs n) :=
  ctx.glDraw mode count (drawType type)

/-- A turn of the loop of `glDrawTexOES`, with the units whose textures are drawn. -/
def drawTexUnit (ctx : UnitContext attribs n) (units : List (GLenum × GLuint)) (i : Nat) :
    Except MemoryFault (List (GLenum × GLuint)) := do
  let unit := GL_TEXTURE0 + UInt32.ofNat i
  let enabled ← ctx.isTextureUnitEnabled unit
  if enabled then
    let texname ← ctx.getBindedTexture unit GL_TEXTURE_2D
    return units ++ [(unit, texname)]
  else return units

/-- `glDrawTexOES`; `sized` says that width and height are positive. -/
def glDrawTexOES (ctx : UnitContext attribs n) (sized : Bool) :
    Except MemoryFault (UnitContext attribs n) :=
  if !sized then .ok (ctx.setGLerror GL_INVALID_VALUE)
  else ((List.range n).foldlM ctx.drawTexUnit []).map fun _ => ctx

end UnitContext

/-! ## Runs -/

inductive UnitCall
  | textureCall (call : TextureCall)
  | glClientActiveTexture (texture : GLenum)
  | glEnable (cap : GLenum)
  | glDisable (cap : GLenum)
  | glVertexPointer (size : Int) (type : GLenum) (stride : Int)
  | glNormalPointer (type : GLenum) (stride : Int)
  | glColorPointer (size : Int) (type : GLenum) (stride : Int)
  | glTexCoordPointer (size : Int) (type : GLenum) (stride : Int)
  | glPointSizePointerOES (type : GLenum) (stride : Int)
  | glVertexAttribPointer (indx : GLuint) (size : Int) (type : GLenum) (normalized : Bool)
      (stride : Int)
  | glEnableClientState (array : GLenum)
  | glDisableClientState (array : GLenum)
  | glEnableVertexAttribArray (index : GLuint)
  | glDisableVertexAttribArray (index : GLuint)
  | glDrawArrays (mode : GLenum) (count : Int)
  | glDrawElements (mode : GLenum) (count : Int) (type : GLenum)
  | glDrawTexOES (sized : Bool)

namespace UnitCall

def version : UnitCall → Option GLESVersion
  | .glClientActiveTexture _ | .glVertexPointer .. | .glNormalPointer .. | .glColorPointer ..
  | .glTexCoordPointer .. | .glPointSizePointerOES .. | .glEnableClientState _
  | .glDisableClientState _ | .glDrawTexOES _ => some .GLES_CM
  | .glVertexAttribPointer .. | .glEnableVertexAttribArray _ | .glDisableVertexAttribArray _ =>
      some .GLES_V2
  | _ => none

def unitEnum : UnitCall → Option GLenum
  | .textureCall (.glActiveTexture texture) => some texture
  | .glClientActiveTexture texture => some texture
  | _ => none

end UnitCall

namespace UnitContext

variable {attribs n : Nat}

def call (ctx : UnitContext attribs n) : UnitCall → Except MemoryFault (UnitContext attribs n)
  | .textureCall call => (ctx.textures.call call).map fun textures => { ctx with textures }
  | .glClientActiveTexture texture => .ok (ctx.glClientActiveTexture texture)
  | .glEnable cap => ctx.glEnable cap true
  | .glDisable cap => ctx.glEnable cap false
  | .glVertexPointer size type stride => ctx.glVertexPointer size type stride
  | .glNormalPointer type stride => ctx.glNormalPointer type stride
  | .glColorPointer size type stride => ctx.glColorPointer size type stride
  | .glTexCoordPointer size type stride => ctx.glTexCoordPointer size type stride
  | .glPointSizePointerOES type stride => ctx.glPointSizePointerOES type stride
  | .glVertexAttribPointer indx size type normalized stride =>
      .ok (ctx.glVertexAttribPointer indx size type normalized stride)
  | .glEnableClientState array => ctx.glClientState array true
  | .glDisableClientState array => ctx.glClientState array false
  | .glEnableVertexAttribArray index => .ok (ctx.glVertexAttribArray index true)
  | .glDisableVertexAttribArray index => .ok (ctx.glVertexAttribArray index false)
  | .glDrawArrays mode count => ctx.glDrawArrays mode count
  | .glDrawElements mode count type => ctx.glDrawElements mode count type
  | .glDrawTexOES sized => ctx.glDrawTexOES sized

def step (ctx : UnitContext attribs n) (call : UnitCall) :
    Except MemoryFault (UnitContext attribs n) :=
  if call.version.all (· = ctx.version) then ctx.call call else .ok ctx

/-- A new context, as `initContext` leaves it. -/
def initContext (attribs n : Nat) (version : GLESVersion) (gen genCube : GlobalName) :
    Except MemoryFault (UnitContext attribs n) :=
  (Context.initContext n version gen genCube).map fun textures =>
    ⟨textures, fun _ _ => false, 0, 0, fun _ => .new⟩

/-- Both indices are below the number of units. -/
structure InBounds (ctx : UnitContext attribs n) : Prop where
  active : ctx.textures.activeTexture < n
  client : ctx.clientActiveTexture.toNat < n

/-- The indices are in bounds, no call accesses a unit that is not there, and an enum that is
rejected changes no index. -/
structure UnitsSafe (ctx : UnitContext attribs n) : Prop where
  inBounds : ctx.InBounds
  accesses : ∀ call, ctx.step call ≠ .error .outOfBounds
  rejected : ∀ call texture, call.unitEnum = some texture → textureEnum texture n = false →
    ∀ ctx', ctx.step call = .ok ctx' →
      ctx'.textures.activeTexture = ctx.textures.activeTexture ∧
        ctx'.clientActiveTexture = ctx.clientActiveTexture

/-- A call selects the unit `getMaxTexUnits()`, which `textureEnum` lets through. -/
def SelectsMax (ctx : UnitContext attribs n) (call : UnitCall) : Prop :=
  call.version.all (· = ctx.version) ∧ call.unitEnum = some (GL_TEXTURE0 + UInt32.ofNat n)

instance (ctx : UnitContext attribs n) (call : UnitCall) : Decidable (ctx.SelectsMax call) :=
  inferInstanceAs (Decidable (_ ∧ _))

end UnitContext

/-! ## The active texture -/

namespace Context

variable {n : Nat} {ctx : Context n}

/-- A call that accesses no unit that is not there, and leaves the active one. -/
abbrev KeepsUnit (ctx : Context n) (x : Except MemoryFault (Context n)) : Prop :=
  Run.Meets x (· ≠ .outOfBounds) fun ctx' => ctx'.activeTexture = ctx.activeTexture

theorem unit_meets (h : ctx.activeTexture < n) :
    Run.Meets ctx.unit (· ≠ .outOfBounds) fun _ => True := by
  rw [unit, dif_pos h]
  exact .pure trivial

theorem getBindedTexture_meets (h : ctx.activeTexture < n) (target : GLenum) :
    Run.Meets (ctx.getBindedTexture target) (· ≠ .outOfBounds) fun _ => True :=
  (unit_meets h).bind fun _ _ => .pure trivial

theorem setBindedTexture_keepsUnit (h : ctx.activeTexture < n) (target : GLenum) (tex : GLuint) :
    ctx.KeepsUnit (ctx.setBindedTexture target tex) :=
  (unit_meets h).bind fun _ _ => .pure rfl

theorem textureToBind_keepsUnit (target : GLenum) (texture : GLuint) (gen : GlobalName) :
    Run.Meets (ctx.textureToBind target texture gen) (· ≠ .outOfBounds)
      fun r => r.1.activeTexture = ctx.activeTexture := by
  unfold textureToBind
  obtain ⟨ctx₁, hctx₁, hsame⟩ : ∃ ctx₁ : Context n, (if ctx.shareGroup.getGlobalName .TEXTURE
      (textureLocalName (GLTextureTargetToLocal target) texture) = 0 then
        { ctx with
          shareGroup := ctx.shareGroup.genName .TEXTURE
            (textureLocalName (GLTextureTargetToLocal target) texture) gen }
      else ctx) = ctx₁ ∧ ctx₁.activeTexture = ctx.activeTexture := by
    refine ⟨_, rfl, ?_⟩
    split <;> rfl
  dsimp only
  rw [hctx₁]
  split
  · exact .error (by decide)
  · -- a texture without a target gets this one
    split
    · split <;> exact .pure hsame
    · split <;> exact .pure hsame

theorem glBindTexture_keepsUnit (h : ctx.activeTexture < n) (target : GLenum) (texture : GLuint)
    (gen : GlobalName) : ctx.KeepsUnit (ctx.glBindTexture target texture gen) := by
  unfold glBindTexture
  split
  · exact .pure rfl
  · refine (textureToBind_keepsUnit target texture gen).bind fun r hr => ?_
    obtain ⟨ctx', global⟩ := r
    dsimp only at hr ⊢
    cases global with
    | none => exact .pure hr
    | some globalTextureName =>
        refine (setBindedTexture_keepsUnit (hr ▸ h) target texture).bind fun ctx'' hctx'' => ?_
        exact .pure (hctx''.trans hr)

theorem unbind_keepsUnit (h : ctx.activeTexture < n) (target : GLenum) (texture : GLuint) :
    ctx.KeepsUnit (ctx.unbind target texture) := by
  refine (getBindedTexture_meets h target).bind fun binded _ => ?_
  split
  · exact setBindedTexture_keepsUnit h target 0
  · exact .pure rfl

theorem deleteTexture_keepsUnit (h : ctx.activeTexture < n) (texture : GLuint) :
    ctx.KeepsUnit (ctx.deleteTexture texture) := by
  have hunbind : ∀ ctx₁ : Context n, ctx₁.activeTexture = ctx.activeTexture →
      ctx.KeepsUnit (ctx₁.unbind GL_TEXTURE_2D texture >>= fun ctx₂ =>
        ctx₂.unbind GL_TEXTURE_CUBE_MAP texture) := by
    intro ctx₁ hctx₁
    refine (unbind_keepsUnit (hctx₁ ▸ h) GL_TEXTURE_2D texture).bind fun ctx₂ hctx₂ => ?_
    grind [unbind_keepsUnit]
  unfold deleteTexture
  split
  · exact hunbind _ rfl
  · exact .pure rfl

theorem glDeleteTextures_keepsUnit (h : ctx.activeTexture < n) (count : Int)
    (textures : List GLuint) : ctx.KeepsUnit (ctx.glDeleteTextures count textures) := by
  unfold glDeleteTextures
  split
  · exact .pure rfl
  · grind [Run.Meets.foldlM, deleteTexture_keepsUnit]

theorem glTexImage2D_keepsUnit (h : ctx.activeTexture < n) (target argumentError : GLenum) :
    ctx.KeepsUnit (ctx.glTexImage2D target argumentError) := by
  unfold glTexImage2D
  split
  · exact .pure rfl
  · split
    · exact .pure rfl
    · refine (getBindedTexture_meets h target).bind fun tex _ => ?_
      dsimp only
      split
      · exact .pure rfl
      · split <;> exact .pure rfl

theorem glEGLImageTargetTexture2DOES_keepsUnit (h : ctx.activeTexture < n) (target : GLenum)
    (image : Option EglImage) : ctx.KeepsUnit (ctx.glEGLImageTargetTexture2DOES target image) := by
  unfold glEGLImageTargetTexture2DOES
  split
  · exact .pure rfl
  · cases image with
    | none => exact .pure rfl
    | some img =>
        refine (getBindedTexture_meets h target).bind fun binded _ => ?_
        have hsame : ∀ (b : Prop) [Decidable b] (ctx₁ : Context n),
            ctx₁.activeTexture = ctx.activeTexture →
            (if b then ctx₁ else ctx).activeTexture = ctx.activeTexture := by grind
        dsimp only
        split
        · refine .pure (hsame _ _ ?_)
          split <;> rfl
        · refine .pure (hsame _ _ ?_)
          split <;> rfl

theorem call_keepsUnit (h : ctx.activeTexture < n) {call : TextureCall}
    (hcall : (UnitCall.textureCall call).unitEnum = none) : ctx.KeepsUnit (ctx.call call) := by
  cases call with
  | glActiveTexture texture => cases hcall
  | glBindTexture target texture gen => exact glBindTexture_keepsUnit h target texture gen
  | glDeleteTextures count textures => exact glDeleteTextures_keepsUnit h count textures
  | glTexImage2D target argumentError => exact glTexImage2D_keepsUnit h target argumentError
  | glEGLImageTargetTexture2DOES target image =>
      exact glEGLImageTargetTexture2DOES_keepsUnit h target image

end Context

/-! ## The units of all calls -/

/-- The units below the maximum are those that are allocated. -/
theorem unit_lt_iff {n : Nat} (hmax : n < 2 ^ 31) {texture : GLenum}
    (h : textureEnum texture n = true) :
    (texture - GL_TEXTURE0).toNat < n ↔ texture ≠ GL_TEXTURE0 + UInt32.ofNat n := by
  unfold textureEnum at h
  rw [Bool.and_eq_true, decide_eq_true_eq, decide_eq_true_eq] at h
  have hlow := UInt32.le_iff_toNat_le.mp h.1
  have hhigh := UInt32.le_iff_toNat_le.mp h.2
  have hbase : GL_TEXTURE0.toNat = 33984 := rfl
  have htop : (GL_TEXTURE0 + UInt32.ofNat n).toNat = 33984 + n := by
    rw [UInt32.toNat_add, UInt32.toNat_ofNat', hbase]
    omega
  rw [UInt32.toNat_sub_of_le _ _ h.1, Ne, ← UInt32.toNat_inj]
  omega

/-- The check lets the number of units through. -/
theorem textureEnum_max {n : Nat} (hmax : n < 2 ^ 31) :
    textureEnum (GL_TEXTURE0 + UInt32.ofNat n) n = true := by
  have hle : GL_TEXTURE0 ≤ GL_TEXTURE0 + UInt32.ofNat n := by
    rw [UInt32.le_iff_toNat_le, UInt32.toNat_add, UInt32.toNat_ofNat',
      show GL_TEXTURE0.toNat = 33984 from rfl]
    omega
  grind [textureEnum]

namespace UnitContext

variable {attribs n : Nat} {ctx : UnitContext attribs n}

/-- The indices are in bounds, and so is the array of the client's active texture. -/
structure Inv (ctx : UnitContext attribs n) : Prop where
  inBounds : ctx.InBounds
  texCoordArray : ctx.texCoordArray = ctx.clientActiveTexture

def indices (ctx : UnitContext attribs n) : Nat × GLuint × GLuint :=
  (ctx.textures.activeTexture, ctx.clientActiveTexture, ctx.texCoordArray)

theorem Inv.of_indices {ctx' : UnitContext attribs n} (h : ctx.Inv)
    (heq : ctx'.indices = ctx.indices) : ctx'.Inv := by
  obtain ⟨hactive, hrest⟩ := Prod.mk.inj heq
  obtain ⟨hclient, harray⟩ := Prod.mk.inj hrest
  refine ⟨⟨?_, ?_⟩, ?_⟩
  · rw [hactive]
    exact h.inBounds.active
  · rw [hclient]
    exact h.inBounds.client
  · rw [harray, hclient]
    exact h.texCoordArray

theorem Inv.restore (h : ctx.Inv) :
    { ctx with texCoordArray := ctx.clientActiveTexture } = ctx :=
  congrArg (fun array => { ctx with texCoordArray := array }) h.texCoordArray.symm

/-- A call that accesses no unit that is not there, and leaves the indices. -/
abbrev KeepsIndices (ctx : UnitContext attribs n)
    (x : Except MemoryFault (UnitContext attribs n)) : Prop :=
  Run.Meets x (· ≠ .outOfBounds) fun ctx' => ctx'.indices = ctx.indices

theorem texCoords_meets (h : ctx.texCoordArray.toNat < n) :
    Run.Meets ctx.texCoords (· ≠ .outOfBounds) fun _ => True := by
  rw [texCoords, dif_pos h]
  exact .pure trivial

theorem Inv.texCoords_meets (h : ctx.Inv) :
    Run.Meets ctx.texCoords (· ≠ .outOfBounds) fun _ => True :=
  UnitContext.texCoords_meets (h.texCoordArray ▸ h.inBounds.client)

theorem clientPointer_keepsIndices (params types : Bool)
    {arrType : Except MemoryFault (ArrayId attribs n)}
    (harr : Run.Meets arrType (· ≠ .outOfBounds) fun _ => True) (size : Int) (type : GLenum)
    (stride : Int) :
    ctx.KeepsIndices (ctx.clientPointer params types arrType size type stride) := by
  unfold clientPointer
  split
  · exact .pure rfl
  · split
    · exact .pure rfl
    · exact harr.map fun _ _ => rfl

theorem glClientState_keepsIndices (h : ctx.Inv) (array : GLenum) (enable : Bool) :
    ctx.KeepsIndices (ctx.glClientState array enable) := by
  have harray : Run.Meets (ctx.clientArray array) (· ≠ .outOfBounds) fun _ => True := by
    unfold clientArray
    repeat' split
    all_goals first
      | exact .pure trivial
      | exact h.texCoords_meets.map fun _ _ => trivial
  refine harray.map fun arrType _ => ?_
  cases arrType <;> rfl

@[simp] theorem glVertexAttribPointer_indices (indx : GLuint) (size : Int) (type : GLenum)
    (normalized : Bool) (stride : Int) :
    (ctx.glVertexAttribPointer indx size type normalized stride).indices = ctx.indices := by
  unfold glVertexAttribPointer
  split <;> rfl

@[simp] theorem glVertexAttribArray_indices (index : GLuint) (enable : Bool) :
    (ctx.glVertexAttribArray index enable).indices = ctx.indices := by
  unfold glVertexAttribArray
  split <;> rfl

theorem glEnable_keepsIndices (h : ctx.Inv) (cap : GLenum) (enable : Bool) :
    ctx.KeepsIndices (ctx.glEnable cap enable) := by
  unfold glEnable
  split
  · exact (Context.unit_meets h.inBounds.active).bind fun _ _ => .pure rfl
  · exact .pure rfl

/-! ## Draws -/

theorem sub_add_cancel_unit (unit : GLenum) : GL_TEXTURE0 + unit - GL_TEXTURE0 = unit := by
  rw [UInt32.add_comm, UInt32.add_sub_cancel]

/-- The unit of a turn of a loop over all units. -/
theorem toNat_unit (hmax : n < 2 ^ 31) {i : Nat} (hi : i < n) :
    (GL_TEXTURE0 + UInt32.ofNat i - GL_TEXTURE0).toNat = i := by
  rw [sub_add_cancel_unit, UInt32.toNat_ofNat', Nat.mod_eq_of_lt (by omega)]

/-- A turn of the loop over the units moves the client's active texture and nothing else. -/
theorem setupTexCoords_meets (hmax : n < 2 ^ 31)
    {r : UnitContext attribs n × List (ArrayId attribs n)} {i : Nat} (hi : i < n) :
    Run.Meets (setupTexCoords r i) (· ≠ .outOfBounds) fun r' =>
      ∀ tex, r'.1.setClientActiveTexture tex = r.1.setClientActiveTexture tex := by
  refine (texCoords_meets ?_).bind fun array _ => .pure fun tex => rfl
  have hunit : (GL_TEXTURE0 + UInt32.ofNat i - GL_TEXTURE0).toNat < n := by
    rw [toNat_unit hmax hi]
    exact hi
  exact hunit

/-- A draw puts the client's active texture back. -/
theorem setupArraysPointers_meets (hmax : n < 2 ^ 31) (h : ctx.Inv) :
    Run.Meets ctx.setupArraysPointers (· ≠ .outOfBounds) fun r => r.1 = ctx := by
  unfold setupArraysPointers
  split
  · refine h.texCoords_meets.bind fun _ _ => ?_
    have hloop : Run.Meets ((List.range n).foldlM setupTexCoords
        (ctx, [.vertex, .normal, .color, .pointSize].filter ctx.isArrEnabled))
        (· ≠ .outOfBounds)
        fun r => ∀ tex, r.1.setClientActiveTexture tex = ctx.setClientActiveTexture tex := by
      grind [Run.Meets.foldlM, setupTexCoords_meets]
    refine hloop.bind fun r hr => .pure ?_
    grind [setClientActiveTexture, UInt32.add_sub_cancel, h.restore]
  · exact .pure rfl

theorem glDraw_keepsIndices (hmax : n < 2 ^ 31) (h : ctx.Inv) (mode : GLenum) (count : Int)
    (types : Bool) : ctx.KeepsIndices (ctx.glDraw mode count types) := by
  unfold glDraw
  split
  · exact .pure rfl
  · split
    · exact .pure rfl
    · split
      · exact .pure rfl
      · exact (setupArraysPointers_meets hmax h).map fun r hr => by rw [hr]

theorem textureUnit_meets (hmax : n < 2 ^ 31) {i : Nat} (hi : i < n) :
    Run.Meets (textureUnit (GL_TEXTURE0 + UInt32.ofNat i) : Except MemoryFault (Fin n))
      (· ≠ .outOfBounds) fun _ => True := by
  have hunit : (GL_TEXTURE0 + UInt32.ofNat i - GL_TEXTURE0).toNat < n := by
    rw [toNat_unit hmax hi]
    exact hi
  rw [textureUnit, dif_pos hunit]
  exact .pure trivial

theorem glDrawTexOES_keepsIndices (hmax : n < 2 ^ 31) (sized : Bool) :
    ctx.KeepsIndices (ctx.glDrawTexOES sized) := by
  unfold glDrawTexOES
  split
  · exact .pure rfl
  · have hloop : Run.Meets ((List.range n).foldlM ctx.drawTexUnit []) (· ≠ .outOfBounds)
        fun _ => True := by
      refine Run.Meets.foldlM (fun units i hi _ => ?_) trivial
      have hunit := textureUnit_meets hmax (List.mem_range.mp hi)
      have henabled : Run.Meets (ctx.isTextureUnitEnabled (GL_TEXTURE0 + UInt32.ofNat i))
          (· ≠ .outOfBounds) fun _ => True := hunit.bind fun _ _ => .pure trivial
      have hbinded : Run.Meets (ctx.getBindedTexture (GL_TEXTURE0 + UInt32.ofNat i) GL_TEXTURE_2D)
          (· ≠ .outOfBounds) fun _ => True := hunit.bind fun _ _ => .pure trivial
      refine henabled.bind fun enabled _ => ?_
      split
      · exact hbinded.bind fun _ _ => .pure trivial
      · exact .pure trivial
    exact hloop.map fun _ _ => rfl

/-! ## Steps -/

theorem call_keepsIndices (hmax : n < 2 ^ 31) (h : ctx.Inv) {call : UnitCall}
    (hcall : call.unitEnum = none) : ctx.KeepsIndices (ctx.call call) := by
  cases call with
  | textureCall call =>
      refine (Context.call_keepsUnit h.inBounds.active hcall).map fun textures htextures => ?_
      rw [indices, indices, htextures]
  | glClientActiveTexture texture => cases hcall
  | glEnable cap => exact glEnable_keepsIndices h cap true
  | glDisable cap => exact glEnable_keepsIndices h cap false
  | glVertexPointer size type stride =>
      exact clientPointer_keepsIndices _ _ (.pure trivial) size type stride
  | glNormalPointer type stride =>
      exact clientPointer_keepsIndices _ _ (.pure trivial) 3 type stride
  | glColorPointer size type stride =>
      exact clientPointer_keepsIndices _ _ (.pure trivial) size type stride
  | glTexCoordPointer size type stride =>
      exact clientPointer_keepsIndices _ _ h.texCoords_meets size type stride
  | glPointSizePointerOES type stride =>
      exact clientPointer_keepsIndices _ _ (.pure trivial) 1 type stride
  | glVertexAttribPointer indx size type normalized stride =>
      exact .pure (glVertexAttribPointer_indices indx size type normalized stride)
  | glEnableClientState array => exact glClientState_keepsIndices h array true
  | glDisableClientState array => exact glClientState_keepsIndices h array false
  | glEnableVertexAttribArray index => exact .pure (glVertexAttribArray_indices index true)
  | glDisableVertexAttribArray index => exact .pure (glVertexAttribArray_indices index false)
  | glDrawArrays mode count => exact glDraw_keepsIndices hmax h mode count true
  | glDrawElements mode count type => exact glDraw_keepsIndices hmax h mode count (drawType type)
  | glDrawTexOES sized => exact glDrawTexOES_keepsIndices hmax sized

/-- The unit becomes the active one, or that of the client. -/
def Selected (ctx ctx' : UnitContext attribs n) (unit : GLuint) : Prop :=
  ctx'.indices = (unit.toNat, ctx.clientActiveTexture, ctx.texCoordArray) ∨
    ctx'.indices = (ctx.textures.activeTexture, unit, unit)

theorem Inv.of_selected {ctx' : UnitContext attribs n} {unit : GLuint} (h : ctx.Inv)
    (hlt : unit.toNat < n) (hselected : ctx.Selected ctx' unit) : ctx'.Inv := by
  rcases hselected with heq | heq
  · obtain ⟨hactive, hrest⟩ := Prod.mk.inj heq
    obtain ⟨hclient, harray⟩ := Prod.mk.inj hrest
    exact ⟨⟨hactive ▸ hlt, hclient ▸ h.inBounds.client⟩,
      harray.trans (h.texCoordArray.trans hclient.symm)⟩
  · obtain ⟨hactive, hrest⟩ := Prod.mk.inj heq
    obtain ⟨hclient, harray⟩ := Prod.mk.inj hrest
    exact ⟨⟨hactive ▸ h.inBounds.active, hclient ▸ hlt⟩, harray.trans hclient.symm⟩

theorem selected_outOfBounds {ctx' : UnitContext attribs n} {unit : GLuint}
    (hge : ¬unit.toNat < n) (hselected : ctx.Selected ctx' unit) : ¬ctx'.InBounds := by
  intro hbounds
  rcases hselected with heq | heq
  · exact hge ((Prod.mk.inj heq).1 ▸ hbounds.active)
  · exact hge ((Prod.mk.inj (Prod.mk.inj heq).2).1 ▸ hbounds.client)

theorem call_selects {call : UnitCall} {texture : GLenum} (hcall : call.unitEnum = some texture) :
    ∃ ctx', ctx.call call = .ok ctx' ∧
      (textureEnum texture n = false → ctx'.indices = ctx.indices) ∧
      (textureEnum texture n = true → ctx.Selected ctx' (texture - GL_TEXTURE0)) := by
  have hactive : ∀ enum, textureEnum enum n = false →
      (ctx.textures.glActiveTexture enum).activeTexture = ctx.textures.activeTexture := by
    intro enum henum
    rw [Context.glActiveTexture, henum]
    rfl
  cases call with
  | textureCall call =>
      cases call with
      | glActiveTexture enum =>
          obtain rfl := Option.some.inj hcall
          refine ⟨_, rfl, fun henum => ?_, fun henum => .inl ?_⟩
          · grind [indices]
          · rw [indices, Context.glActiveTexture, henum]
            rfl
      | _ => cases hcall
  | glClientActiveTexture enum =>
      obtain rfl := Option.some.inj hcall
      refine ⟨_, rfl, fun henum => ?_, fun henum => .inr ?_⟩
      · rw [glClientActiveTexture, henum]
        rfl
      · rw [glClientActiveTexture, henum]
        rfl
  | _ => cases hcall

/-- A call accesses no unit that is not there, and keeps the indices in bounds unless it selects
the maximum. -/
theorem step_meets (hmax : n < 2 ^ 31) (h : ctx.Inv) (call : UnitCall) :
    Run.Meets (ctx.step call) (· ≠ .outOfBounds) fun ctx' =>
      (ctx.SelectsMax call → ¬ctx'.InBounds) ∧ (¬ctx.SelectsMax call → ctx'.Inv) ∧
      ∀ texture, call.unitEnum = some texture → textureEnum texture n = false →
        ctx'.indices = ctx.indices := by
  unfold step SelectsMax
  split
  · rename_i hversion
    cases hcall : call.unitEnum with
    | none =>
        refine (call_keepsIndices hmax h hcall).mono fun ctx' hctx' => ⟨fun hmaximum => ?_,
          fun _ => h.of_indices hctx', fun _ htexture => ?_⟩
        · cases hmaximum.2
        · cases htexture
    | some texture =>
        obtain ⟨ctx', hrun, hrejected, haccepted⟩ := @call_selects _ _ ctx _ _ hcall
        rw [hrun]
        refine .pure ⟨fun hmaximum hbounds => ?_, fun hother => ?_, fun texture' htexture => ?_⟩
        · obtain rfl := Option.some.inj hmaximum.2
          have hselected := haccepted (textureEnum_max hmax)
          have hunit := unit_lt_iff hmax (textureEnum_max hmax)
          exact selected_outOfBounds (fun hlt => hunit.mp hlt rfl) hselected hbounds
        · cases henum : textureEnum texture n with
          | false => exact h.of_indices (hrejected henum)
          | true =>
              have hne : texture ≠ GL_TEXTURE0 + UInt32.ofNat n := by grind
              exact h.of_selected ((unit_lt_iff hmax henum).mpr hne) (haccepted henum)
        · grind
  · rename_i hversion
    exact .pure ⟨fun hmaximum => absurd hmaximum.1 hversion, fun _ => h, fun _ _ _ => rfl⟩

/-! ## Runs of a new context -/

theorem initContext_inv {version : GLESVersion} {gen genCube : GlobalName}
    (h : initContext attribs n version gen genCube = .ok ctx) : ctx.Inv := by
  obtain ⟨textures, hinit, rfl⟩ := Run.map_eq_ok.mp h
  have hpos : 0 < n := by
    cases n with
    | zero => cases version <;> cases hinit
    | succ n => exact Nat.succ_pos n
  obtain rfl := Context.initContext_eq hinit
  exact ⟨⟨hpos, hpos⟩, rfl⟩

theorem Inv.safe (hmax : n < 2 ^ 31) (h : ctx.Inv) : ctx.UnitsSafe := by
  refine ⟨h.inBounds, fun call hfault => ?_, fun call texture hcall henum ctx' hstep => ?_⟩
  · exact (step_meets hmax h call).faults _ hfault rfl
  · have hindices := ((step_meets hmax h call).result ctx' hstep).2.2 texture hcall henum
    obtain ⟨hactive, hrest⟩ := Prod.mk.inj hindices
    exact ⟨hactive, (Prod.mk.inj hrest).1⟩

/-- In every run of a new context that never selects the maximum, no call accesses a unit that is
not there. The first call that selects it leaves the bounds. -/
theorem units_safe (attribs n : Nat) (hmax : n < 2 ^ 31) (version : GLESVersion)
    (gen genCube : GlobalName) (ctx₀ ctx : UnitContext attribs n)
    (hstart : initContext attribs n version gen genCube = .ok ctx₀)
    (h : Run.Reach step (fun ctx call => ¬ctx.SelectsMax call) ctx₀ ctx) :
    ctx.UnitsSafe ∧
      ∀ call ctx', ctx.step call = .ok ctx' → (ctx'.InBounds ↔ ¬ctx.SelectsMax call) := by
  have hinv : ctx.Inv := by
    refine h.invariant (initContext_inv hstart) fun ctx₁ call ctx₂ hinv hother hstep => ?_
    exact ((step_meets hmax hinv call).result ctx₂ hstep).2.1 hother
  refine ⟨hinv.safe hmax, fun call ctx' hstep => ?_⟩
  obtain ⟨hmaximum, hother, -⟩ := (step_meets hmax hinv call).result ctx' hstep
  exact ⟨fun hbounds hselects => hmaximum hselects hbounds,
    fun hselects => (hother hselects).inBounds⟩

private theorem unit_name_ne : (101 : GLuint) ≠ 0 := by decide

private theorem unit_cube_name_ne : (102 : GLuint) ≠ 0 := by decide

def twoUnits : UnitContext 0 2 where
  textures := Context.started 2 .GLES_CM ⟨101, unit_name_ne⟩ ⟨102, unit_cube_name_ne⟩
  enabled := fun _ _ => false
  clientActiveTexture := 0
  texCoordArray := 0
  pointers := fun _ => .new

theorem initContext_twoUnits :
    initContext 0 2 .GLES_CM ⟨101, by decide⟩ ⟨102, by decide⟩ = .ok twoUnits := by
  rw [initContext, Context.initContext_succ]
  rfl

/-- Textures and arrays of the second unit are set and drawn. -/
theorem units_safe_second :
    ∃ ctx : UnitContext 0 2, ctx.clientActiveTexture = 1 ∧ ctx.UnitsSafe := by
  have hrun : Run.check step (fun ctx call => !decide (ctx.SelectsMax call))
      (fun ctx => ctx.clientActiveTexture = 1) twoUnits
      [.textureCall (.glActiveTexture (GL_TEXTURE0 + 1)),
        .textureCall (.glBindTexture GL_TEXTURE_2D 5 ⟨103, by decide⟩), .glEnable GL_TEXTURE_2D,
        .glClientActiveTexture (GL_TEXTURE0 + 1), .glTexCoordPointer 2 GL_FLOAT 0,
        .glEnableClientState GL_TEXTURE_COORD_ARRAY, .glEnableClientState GL_VERTEX_ARRAY,
        .glClientActiveTexture (GL_TEXTURE0 + 3), .glDrawArrays 4 3, .glDrawTexOES true] = true := by
    decide +kernel
  have hsound : ∀ (ctx : UnitContext 0 2) (call : UnitCall),
      (!decide (ctx.SelectsMax call)) = true → ¬ctx.SelectsMax call := by
    intro ctx call hok
    simpa using hok
  obtain ⟨ctx, hreach, htest⟩ := Run.exists_reach_of_check hsound hrun
  exact ⟨ctx, of_decide_eq_true htest,
    (units_safe 0 2 (by decide) .GLES_CM ⟨101, by decide⟩ ⟨102, by decide⟩ twoUnits ctx
      initContext_twoUnits hreach).1⟩

/-- The number of units is selected, and a texture is bound there; or it is selected for the
client, and an array is set. -/
theorem maximum_outOfBounds :
    ∃ ctx₀ : UnitContext 0 2,
      initContext 0 2 .GLES_CM ⟨101, by decide⟩ ⟨102, by decide⟩ = .ok ctx₀ ∧
      (∃ ctx, Run.Reach step (fun _ _ => True) ctx₀ ctx ∧ ctx.textures.activeTexture = 2 ∧
        ctx.step (.textureCall (.glBindTexture GL_TEXTURE_2D 5 ⟨103, by decide⟩)) =
          .error .outOfBounds) ∧
      ∃ ctx, Run.Reach step (fun _ _ => True) ctx₀ ctx ∧ ctx.clientActiveTexture = 2 ∧
        ctx.step (.glTexCoordPointer 2 GL_FLOAT 0) = .error .outOfBounds := by
  refine ⟨twoUnits, initContext_twoUnits, ?_, ?_⟩
  · exact ⟨_, .step (a := .textureCall (.glActiveTexture (GL_TEXTURE0 + 2))) .refl trivial rfl,
      rfl, rfl⟩
  · exact ⟨_, .step (a := .glClientActiveTexture (GL_TEXTURE0 + 2)) .refl trivial rfl, rfl, rfl⟩

end UnitContext

end AndroidRenderer.Translator
