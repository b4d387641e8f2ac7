import AndroidRenderer.Translator.EglConfig

/-!
# eglChooseConfig

The attribute list is read into the variables of a selection, and a dummy config is made of them.
Lists are the memory from `attrib_list` on, up to where it must not be read.
-/

namespace AndroidRenderer.Translator

/-- The attributes that a list may ask for. -/
inductive Criterion
  | EGL_LEVEL
  | EGL_BUFFER_SIZE
  | EGL_RED_SIZE
  | EGL_GREEN_SIZE
  | EGL_BLUE_SIZE
  | EGL_ALPHA_SIZE
  | EGL_BIND_TO_TEXTURE_RGB
  | EGL_BIND_TO_TEXTURE_RGBA
  | EGL_CONFIG_CAVEAT
  | EGL_CONFIG_ID
  | EGL_DEPTH_SIZE
  | EGL_MAX_SWAP_INTERVAL
  | EGL_MIN_SWAP_INTERVAL
  | EGL_NATIVE_RENDERABLE
  | EGL_RENDERABLE_TYPE
  | EGL_NATIVE_VISUAL_TYPE
  | EGL_SAMPLE_BUFFERS
  | EGL_SAMPLES
  | EGL_STENCIL_SIZE
  | EGL_SURFACE_TYPE
  | EGL_TRANSPARENT_TYPE
  | EGL_TRANSPARENT_RED_VALUE
  | EGL_TRANSPARENT_GREEN_VALUE
  | EGL_TRANSPARENT_BLUE_VALUE
  deriving DecidableEq, Repr

namespace Criterion

def all : List Criterion :=
  [.EGL_LEVEL, .EGL_BUFFER_SIZE, .EGL_RED_SIZE, .EGL_GREEN_SIZE, .EGL_BLUE_SIZE, .EGL_ALPHA_SIZE,
    .EGL_BIND_TO_TEXTURE_RGB, .EGL_BIND_TO_TEXTURE_RGBA, .EGL_CONFIG_CAVEAT, .EGL_CONFIG_ID,
    .EGL_DEPTH_SIZE, .EGL_MAX_SWAP_INTERVAL, .EGL_MIN_SWAP_INTERVAL, .EGL_NATIVE_RENDERABLE,
    .EGL_RENDERABLE_TYPE, .EGL_NATIVE_VISUAL_TYPE, .EGL_SAMPLE_BUFFERS, .EGL_SAMPLES,
    .EGL_STENCIL_SIZE, .EGL_SURFACE_TYPE, .EGL_TRANSPARENT_TYPE, .EGL_TRANSPARENT_RED_VALUE,
    .EGL_TRANSPARENT_GREEN_VALUE, .EGL_TRANSPARENT_BLUE_VALUE]

def value : Criterion → EGLint
  | .EGL_BUFFER_SIZE => 0x3020
  | .EGL_ALPHA_SIZE => 0x3021
  | .EGL_BLUE_SIZE => 0x3022
  | .EGL_GREEN_SIZE => 0x3023
  | .EGL_RED_SIZE => 0x3024
  | .EGL_DEPTH_SIZE => 0x3025
  | .EGL_STENCIL_SIZE => 0x3026
  | .EGL_CONFIG_CAVEAT => 0x3027
  | .EGL_CONFIG_ID => 0x3028
  | .EGL_LEVEL => 0x3029
  | .EGL_NATIVE_RENDERABLE => 0x302D
  | .EGL_NATIVE_VISUAL_TYPE => 0x302F
  | .EGL_SAMPLES => 0x3031
  | .EGL_SAMPLE_BUFFERS => 0x3032
  | .EGL_SURFACE_TYPE => 0x3033
  | .EGL_TRANSPARENT_TYPE => 0x3034
  | .EGL_TRANSPARENT_BLUE_VALUE => 0x3035
  | .EGL_TRANSPARENT_GREEN_VALUE => 0x3036
  | .EGL_TRANSPARENT_RED_VALUE => 0x3037
  | .EGL_BIND_TO_TEXTURE_RGB => 0x3039
  | .EGL_BIND_TO_TEXTURE_RGBA => 0x303A
  | .EGL_MIN_SWAP_INTERVAL => 0x303B
  | .EGL_MAX_SWAP_INTERVAL => 0x303C
  | .EGL_RENDERABLE_TYPE => 0x3040

/-- The case of the `switch` that a value goes to. -/
def ofValue? (attrib : EGLint) : Option Criterion :=
  all.find? fun a => a.value == attrib

end Criterion

/-- `EGL_MAX_PBUFFER_WIDTH`, `EGL_MAX_PBUFFER_HEIGHT`, `EGL_MAX_PBUFFER_PIXELS` and
`EGL_NATIVE_VISUAL_ID`, which are skipped. -/
def skippedAttribs : List EGLint := [0x302C, 0x302A, 0x302B, 0x302E]

inductive ChooseFault
  | EGL_BAD_DISPLAY
  | EGL_NOT_INITIALIZED
  | EGL_BAD_PARAMETER
  | EGL_BAD_ATTRIBUTE
  | outOfBounds
  deriving DecidableEq, Repr

/-- The variables of `eglChooseConfig`. -/
structure Selection where
  surface_type : EGLint
  renderable_type : EGLint
  bind_to_tex_rgb : EGLint
  bind_to_tex_rgba : EGLint
  caveat : EGLint
  config_id : EGLint
  native_renderable : EGLint
  native_visual_type : EGLint
  max_swap_interval : EGLint
  min_swap_interval : EGLint
  trans_red_val : EGLint
  trans_green_val : EGLint
  trans_blue_val : EGLint
  transparent_type : EGLint
  buffer_size : EGLint
  red_size : EGLint
  green_size : EGLint
  blue_size : EGLint
  alpha_size : EGLint
  depth_size : EGLint
  frame_buffer_level : EGLint
  sample_buffers_num : EGLint
  samples_per_pixel : EGLint
  stencil_size : EGLint
  deriving DecidableEq, Repr

namespace Selection

def defaults : Selection where
  surface_type := EGL_WINDOW_BIT
  renderable_type := EGL_OPENGL_ES_BIT
  bind_to_tex_rgb := EGL_DONT_CARE
  bind_to_tex_rgba := EGL_DONT_CARE
  caveat := EGL_DONT_CARE
  config_id := EGL_DONT_CARE
  native_renderable := EGL_DONT_CARE
  native_visual_type := EGL_DONT_CARE
  max_swap_interval := EGL_DONT_CARE
  min_swap_interval := EGL_DONT_CARE
  trans_red_val := EGL_DONT_CARE
  trans_green_val := EGL_DONT_CARE
  trans_blue_val := EGL_DONT_CARE
  transparent_type := EGL_NONE
  buffer_size := 0
  red_size := 0
  green_size := 0
  blue_size := 0
  alpha_size := 0
  depth_size := 0
  frame_buffer_level := 0
  sample_buffers_num := 0
  samples_per_pixel := 0
  stencil_size := 0

/-- The values that a case of the `switch` refuses. The tests of `EGL_NATIVE_VISUAL_TYPE` and
`EGL_SAMPLE_BUFFERS` stand behind a `break`. -/
def refuses : Criterion → EGLint → Bool
  | .EGL_LEVEL, value => value == EGL_DONT_CARE
  | .EGL_BUFFER_SIZE, value | .EGL_RED_SIZE, value | .EGL_GREEN_SIZE, value
  | .EGL_BLUE_SIZE, value | .EGL_ALPHA_SIZE, value | .EGL_CONFIG_ID, value
  | .EGL_DEPTH_SIZE, value | .EGL_MAX_SWAP_INTERVAL, value | .EGL_MIN_SWAP_INTERVAL, value
  | .EGL_SAMPLES, value | .EGL_STENCIL_SIZE, value => value.slt 0
  | .EGL_CONFIG_CAVEAT, value =>
      value != EGL_NONE && value != EGL_SLOW_CONFIG && value != EGL_NON_CONFORMANT_CONFIG
  | .EGL_TRANSPARENT_TYPE, value => value != EGL_NONE && value != EGL_TRANSPARENT_RGB
  | .EGL_BIND_TO_TEXTURE_RGB, _ | .EGL_BIND_TO_TEXTURE_RGBA, _ | .EGL_NATIVE_RENDERABLE, _
  | .EGL_RENDERABLE_TYPE, _ | .EGL_NATIVE_VISUAL_TYPE, _ | .EGL_SAMPLE_BUFFERS, _
  | .EGL_SURFACE_TYPE, _ | .EGL_TRANSPARENT_RED_VALUE, _ | .EGL_TRANSPARENT_GREEN_VALUE, _
  | .EGL_TRANSPARENT_BLUE_VALUE, _ => false

/-- The assignment of a case of the `switch`. -/
def assign (sel : Selection) : Criterion → EGLint → Selection
  | .EGL_LEVEL, value => { sel with frame_buffer_level := value }
  | .EGL_BUFFER_SIZE, value => { sel with buffer_size := value }
  | .EGL_RED_SIZE, value => { sel with red_size := value }
  | .EGL_GREEN_SIZE, value => { sel with green_size := value }
  | .EGL_BLUE_SIZE, value => { sel with blue_size := value }
  | .EGL_ALPHA_SIZE, value => { sel with alpha_size := value }
  | .EGL_BIND_TO_TEXTURE_RGB, value => { sel with bind_to_tex_rgb := value }
  | .EGL_BIND_TO_TEXTURE_RGBA, value => { sel with bind_to_tex_rgba := value }
  | .EGL_CONFIG_CAVEAT, value => { sel with caveat := value }
  | .EGL_CONFIG_ID, value => { sel with config_id := value }
  | .EGL_DEPTH_SIZE, value => { sel with depth_size := value }
  | .EGL_MAX_SWAP_INTERVAL, value => { sel with max_swap_interval := value }
  | .EGL_MIN_SWAP_INTERVAL, value => { sel with min_swap_interval := value }
  | .EGL_NATIVE_RENDERABLE, value => { sel with native_renderable := value }
  | .EGL_RENDERABLE_TYPE, value => { sel with renderable_type := value }
  | .EGL_NATIVE_VISUAL_TYPE, value => { sel with native_visual_type := value }
  | .EGL_SAMPLE_BUFFERS, value => { sel with sample_buffers_num := value }
  | .EGL_SAMPLES, value => { sel with samples_per_pixel := value }
  | .EGL_STENCIL_SIZE, value => { sel with stencil_size := value }
  | .EGL_SURFACE_TYPE, value => { sel with surface_type := value }
  | .EGL_TRANSPARENT_TYPE, value => { sel with transparent_type := value }
  | .EGL_TRANSPARENT_RED_VALUE, value => { sel with trans_red_val := value }
  | .EGL_TRANSPARENT_GREEN_VALUE, value => { sel with trans_green_val := value }
  | .EGL_TRANSPARENT_BLUE_VALUE, value => { sel with trans_blue_val := value }

/-- The loop over the list; whether it ends at an `EGL_CONFIG_ID`. -/
def read : List EGLint → Selection → Except ChooseFault (Selection × Bool)
  | [], _ => .error .outOfBounds
  | [attrib], sel =>
      if attrib = EGL_NONE then .ok (sel, false)
      else if attrib ∈ skippedAttribs ∨ (Criterion.ofValue? attrib).isSome then
        .error .outOfBounds
      else .error .EGL_BAD_ATTRIBUTE
  | attrib :: value :: rest, sel =>
      if attrib = EGL_NONE then .ok (sel, false)
      else if attrib ∈ skippedAttribs then read rest sel
      else
        match Criterion.ofValue? attrib with
        | none => .error .EGL_BAD_ATTRIBUTE
        | some a =>
            if refuses a value then .error .EGL_BAD_ATTRIBUTE
            else if a = .EGL_CONFIG_ID then .ok (sel.assign a value, true)
            else read rest (sel.assign a value)

def dummy (sel : Selection) : EglConfig :=
  .new sel.red_size sel.green_size sel.blue_size sel.alpha_size sel.caveat sel.config_id
    sel.depth_size sel.frame_buffer_level sel.native_renderable sel.renderable_type
    sel.native_visual_type sel.samples_per_pixel sel.stencil_size sel.surface_type
    sel.transparent_type sel.trans_red_val sel.trans_green_val sel.trans_blue_val

end Selection

def noAttribs : Option (List EGLint) → Bool
  | none => true
  | some attribs => attribs.head? == some EGL_NONE

/-- What a call stores in `configs` and in `num_config`. -/
structure Chosen where
  configs : List ConfigPtr
  num_config : Nat
  deriving DecidableEq, Repr

/-- The selection of an attribute list, and whether it ends at an `EGL_CONFIG_ID`. -/
def readAttribs (attrib_list : Option (List EGLint)) : Except ChooseFault (Selection × Bool) :=
  if noAttribs attrib_list then .ok (.defaults, false)
  else Selection.read (attrib_list.getD []) .defaults

/-- `configs` and `num_config` tell whether these pointers are not `NULL`. -/
def eglChooseConfig (display : Option EglDisplay) (attrib_list : Option (List EGLint))
    (configs : Bool) (config_size : Int) (num_config : Bool) : Except ChooseFault Chosen :=
  match display with
  | none => .error .EGL_BAD_DISPLAY
  | some dpy =>
      if !dpy.m_initialized then .error .EGL_NOT_INITIALIZED
      else if !num_config then .error .EGL_BAD_PARAMETER
      else
        match readAttribs attrib_list with
        | .error fault => .error fault
        | .ok (sel, true) =>
            match dpy.getConfig sel.config_id with
            | some pConfig => .ok ⟨if configs then [pConfig] else [], 1⟩
            | none => .error .EGL_BAD_ATTRIBUTE
        | .ok (sel, false) =>
            let chosen := dpy.chooseConfigs sel.dummy configs config_size
            .ok ⟨chosen.1, chosen.2⟩

end AndroidRenderer.Translator
