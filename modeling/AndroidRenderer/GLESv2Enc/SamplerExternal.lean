import AndroidRenderer.Lib.CString
import AndroidRenderer.OpenglCodecCommon.GLSharedGroup

/-!
# Shader sources with samplers of external textures

`replaceSamplerExternalWith2D` rewrites a shader source in place before it is sent to the host, and
records the names of the samplers that it has seen. A position is a pointer into the source. Each
loop has as many turns as it may need, and `none` says that it would need more.
-/

namespace AndroidRenderer

open CString

def STR_HASH_EXTENSION : List UInt8 := literal "#extension"

def STR_GL_OES_EGL_IMAGE_EXTERNAL : List UInt8 := literal "GL_OES_EGL_image_external"

def STR_SAMPLER_EXTERNAL_OES : List UInt8 := literal "samplerExternalOES"

def STR_SAMPLER2D_SPACE : List UInt8 := literal "sampler2D         "

def isLine (c : UInt8) : Bool := c != 0 && c != 13 && c != 10

/-- A character of an identifier, `isalnum(*c) || *c == '_'`. -/
def isIdentifier (c : UInt8) : Bool := isalnum c || c == 95

/-- The loop over the `#extension` statements. -/
def overwriteExtensions : Nat → List UInt8 → Nat → Option (List UInt8)
  | 0, _, _ => none
  | turns + 1, str, c =>
      match strstr STR_HASH_EXTENSION str c with
      | none => some str
      | some start =>
          let c := skip isspace str (start + STR_HASH_EXTENSION.length)
          if At STR_GL_OES_EGL_IMAGE_EXTERNAL str c then
            let c := skip isLine str start
            overwriteExtensions turns (blank str start c) c
          else overwriteExtensions turns str c

/-- The loop over the samplers, with what is returned. -/
def replaceSamplers : Nat → List UInt8 → ShaderData → Nat → Option (Bool × List UInt8 × ShaderData)
  | 0, _, _, _ => none
  | turns + 1, str, data, c =>
      match strstr STR_SAMPLER_EXTERNAL_OES str c with
      | none => some (true, str, data)
      | some c =>
          if c = 0 ∨ isspace (charAt str (c - 1)) = false then
            replaceSamplers turns str data (c + 1)
          else
            let sampler_start := c
            let c := c + STR_SAMPLER_EXTERNAL_OES.length
            if isspace (charAt str c) = false ∧ charAt str c ≠ 0 then
              replaceSamplers turns str data c
            else
              let c := skip isspace str c
              if isalpha (charAt str c) = false ∧ charAt str c ≠ 95 then some (false, str, data)
              else
                let name_start := c
                let c := skip isIdentifier str (c + 1)
                replaceSamplers turns (overwrite str sampler_start STR_SAMPLER2D_SPACE)
                  { data with samplerExternalNames :=
                      data.samplerExternalNames ++ [slice str name_start c] } c

def replaceSamplerExternalWith2D (str : List UInt8) (data : ShaderData) :
    Option (Bool × List UInt8 × ShaderData) :=
  (overwriteExtensions (str.length + 1) str 0).bind fun str =>
    replaceSamplers (str.length + 1) str data 0

end AndroidRenderer
