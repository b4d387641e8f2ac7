import AndroidRenderer.OpenglCodecCommon.TextureState

/-!
# Emulation of external textures

The host has no external textures: both encoders bind the texture of a unit's external
target to the 2D target of the host while the external target has priority. This is what
the two encoders have in common, as functions from the state of the context to the
commands that are sent.
-/

namespace AndroidRenderer

/-- The forms of `glTexParameter` and `glGetTexParameter`. -/
inductive ParameterType
  | f
  | fv
  | i
  | x
  | iv
  | xv
  deriving DecidableEq, Repr

/-- The commands that concern textures. Of the values of a parameter only the first matters,
cast to `GLenum`. -/
inductive TextureCommand
  | glActiveTexture (texture : GLenum)
  | glBindTexture (target : GLenum) (texture : GLuint)
  | glDeleteTextures (textures : List GLuint)
  | glEnable (cap : GLenum)
  | glDisable (cap : GLenum)
  | glTexParameter (type : ParameterType) (target pname param : GLenum)
  | glGetTexParameter (type : ParameterType) (target pname : GLenum)
  deriving DecidableEq, Repr

/-- `m_state` and `m_error` of an encoder. -/
structure TextureEncoder where
  state : TextureState
  error : GLenum

namespace TextureEncoder

/-- The encoder of a new context. -/
def init : TextureEncoder := ⟨.init, GL_NO_ERROR⟩

/-- `s_glActiveTexture` -/
def glActiveTexture (ctx : TextureEncoder) (texture : GLenum) :
    TextureEncoder × List TextureCommand :=
  let r := ctx.state.setActiveTextureUnit texture
  if r.2 ≠ GL_NO_ERROR then (⟨r.1, r.2⟩, [])
  else ({ ctx with state := r.1 }, [.glActiveTexture texture])

/-- What is sent for a texture that is bound to a target the host may not have. -/
def bindCommands (state : TextureState) (target : GLenum) (texture : GLuint) (firstUse : Bool) :
    List TextureCommand :=
  let priorityTarget := state.getPriorityEnabledTarget GL_TEXTURE_2D
  (if target = GL_TEXTURE_EXTERNAL_OES ∧ firstUse then
    [.glBindTexture GL_TEXTURE_2D texture,
      .glTexParameter .i GL_TEXTURE_2D GL_TEXTURE_MIN_FILTER GL_LINEAR,
      .glTexParameter .i GL_TEXTURE_2D GL_TEXTURE_WRAP_S GL_CLAMP_TO_EDGE,
      .glTexParameter .i GL_TEXTURE_2D GL_TEXTURE_WRAP_T GL_CLAMP_TO_EDGE] ++
      (if target ≠ priorityTarget then
        [.glBindTexture GL_TEXTURE_2D (state.getBoundTexture GL_TEXTURE_2D)]
      else [])
  else []) ++
  (if target = priorityTarget then [.glBindTexture GL_TEXTURE_2D texture] else [])

/-- `s_glBindTexture` -/
def glBindTexture (ctx : TextureEncoder) (target : GLenum) (texture : GLuint) (memory : Bool) :
    TextureEncoder × List TextureCommand :=
  let r := ctx.state.bindTexture target texture memory
  if r.2.1 ≠ GL_NO_ERROR then (⟨r.1, r.2.1⟩, [])
  else if target ≠ GL_TEXTURE_2D ∧ target ≠ GL_TEXTURE_EXTERNAL_OES then
    ({ ctx with state := r.1 }, [.glBindTexture target texture])
  else ({ ctx with state := r.1 }, bindCommands r.1 target texture (r.2.2.getD false))

/-- `s_glDeleteTextures` -/
def glDeleteTextures (ctx : TextureEncoder) (textures : List GLuint) :
    TextureEncoder × List TextureCommand :=
  ({ ctx with state := ctx.state.deleteTextures textures }, [.glDeleteTextures textures])

def override2DTextureTarget (ctx : TextureEncoder) (target : GLenum) : List TextureCommand :=
  if (target = GL_TEXTURE_2D ∨ target = GL_TEXTURE_EXTERNAL_OES) ∧
      target ≠ ctx.state.getPriorityEnabledTarget GL_TEXTURE_2D then
    [.glBindTexture GL_TEXTURE_2D (ctx.state.getBoundTexture target)]
  else []

def restore2DTextureTarget (ctx : TextureEncoder) : List TextureCommand :=
  let priorityTarget := ctx.state.getPriorityEnabledTarget GL_TEXTURE_2D
  [.glBindTexture GL_TEXTURE_2D (ctx.state.getBoundTexture priorityTarget)]

def withTarget (ctx : TextureEncoder) (target : GLenum) (command : GLenum → TextureCommand) :
    List TextureCommand :=
  if target = GL_TEXTURE_2D ∨ target = GL_TEXTURE_EXTERNAL_OES then
    ctx.override2DTextureTarget target ++ [command GL_TEXTURE_2D] ++ ctx.restore2DTextureTarget
  else [command target]

/-- `s_glTexParameter*`; the encoders differ in the parameters that are valid for an external
texture. -/
def glTexParameter (isValidTextureExternalParam : GLenum → GLenum → Bool) (ctx : TextureEncoder)
    (type : ParameterType) (target pname param : GLenum) :
    TextureEncoder × List TextureCommand :=
  if target = GL_TEXTURE_EXTERNAL_OES ∧ !isValidTextureExternalParam pname param then
    ({ ctx with error := GL_INVALID_ENUM }, [])
  else (ctx, ctx.withTarget target fun target => .glTexParameter type target pname param)

/-- `s_glGetTexParameterfv`, `s_glGetTexParameteriv` and `s_glGetTexParameterxv` -/
def glGetTexParameter (ctx : TextureEncoder) (type : ParameterType) (target pname : GLenum) :
    TextureEncoder × List TextureCommand :=
  -- answered without the host
  if type = .iv ∧ pname = GL_REQUIRED_TEXTURE_IMAGE_UNITS_OES then (ctx, [])
  else (ctx, ctx.withTarget target fun target => .glGetTexParameter type target pname)

end TextureEncoder

end AndroidRenderer
