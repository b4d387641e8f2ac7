import Mathlib.Data.BitVec

/-!
# Configs of the translator's EGL

A config of a display, and the check of `eglChooseConfig`, which compares it with a dummy config.
The members that no selection reads are left out.
-/

namespace AndroidRenderer.Translator

/-- Also `EGLBoolean` and `EGLenum`, of which only the bits are compared. -/
abbrev EGLint := BitVec 32

def EGL_FALSE : EGLint := 0
def EGL_DONT_CARE : EGLint := -1
def EGL_NONE : EGLint := 0x3038
def EGL_SLOW_CONFIG : EGLint := 0x3050
def EGL_NON_CONFORMANT_CONFIG : EGLint := 0x3051
def EGL_TRANSPARENT_RGB : EGLint := 0x3052
def EGL_WINDOW_BIT : EGLint := 0x0004
def EGL_OPENGL_ES_BIT : EGLint := 0x0001

def MIN_SWAP_INTERVAL : EGLint := 1
def MAX_SWAP_INTERVAL : EGLint := 10

structure EglConfig where
  m_buffer_size : EGLint
  m_red_size : EGLint
  m_green_size : EGLint
  m_blue_size : EGLint
  m_alpha_size : EGLint
  m_bind_to_tex_rgb : EGLint
  m_bind_to_tex_rgba : EGLint
  m_caveat : EGLint
  m_config_id : EGLint
  m_frame_buffer_level : EGLint
  m_depth_size : EGLint
  m_max_swap_interval : EGLint
  m_min_swap_interval : EGLint
  m_native_renderable : EGLint
  m_renderable_type : EGLint
  m_native_visual_type : EGLint
  m_sample_buffers_num : EGLint
  m_samples_per_pixel : EGLint
  m_stencil_size : EGLint
  m_surface_type : EGLint
  m_transparent_type : EGLint
  m_trans_red_val : EGLint
  m_trans_green_val : EGLint
  m_trans_blue_val : EGLint
  m_conformant : EGLint
  deriving DecidableEq, Repr

namespace EglConfig

/-- The constructor that is given every attribute. -/
def new (red_size green_size blue_size alpha_size caveat config_id depth_size frame_buffer_level
    native_renderable renderable_type native_visual_type samples_per_pixel stencil_size surface_type
    transparent_type trans_red_val trans_green_val trans_blue_val : EGLint) : EglConfig where
  m_buffer_size := red_size + green_size + blue_size + alpha_size
  m_red_size := red_size
  m_green_size := green_size
  m_blue_size := blue_size
  m_alpha_size := alpha_size
  m_bind_to_tex_rgb := EGL_FALSE
  m_bind_to_tex_rgba := EGL_FALSE
  m_caveat := caveat
  m_config_id := config_id
  m_frame_buffer_level := frame_buffer_level
  m_depth_size := depth_size
  m_max_swap_interval := MAX_SWAP_INTERVAL
  m_min_swap_interval := MIN_SWAP_INTERVAL
  m_native_renderable := native_renderable
  m_renderable_type := renderable_type
  m_native_visual_type := native_visual_type
  m_sample_buffers_num := if (0#32).slt samples_per_pixel then 1 else 0
  m_samples_per_pixel := samples_per_pixel
  m_stencil_size := stencil_size
  m_surface_type := surface_type
  m_transparent_type := transparent_type
  m_trans_red_val := trans_red_val
  m_trans_green_val := trans_green_val
  m_trans_blue_val := trans_blue_val
  m_conformant :=
    if (0#32).slt (red_size + green_size + blue_size + alpha_size) ∧
        caveat ≠ EGL_NON_CONFORMANT_CONFIG then renderable_type
    else 0

/-- `CHECK_PROP` with `>`. -/
def atLeast (dummy prop_name : EGLint) : Bool :=
  dummy == EGL_DONT_CARE || !prop_name.slt dummy

/-- `CHECK_PROP` and `CHECK_PROP_CAST` with `!=`. -/
def exact (dummy prop_name : EGLint) : Bool :=
  dummy == EGL_DONT_CARE || dummy == prop_name

def mask (dummy prop_name : EGLint) : Bool :=
  dummy == EGL_DONT_CARE || (dummy &&& prop_name) == dummy

def choosen (config dummy : EglConfig) : Bool :=
  atLeast dummy.m_buffer_size config.m_buffer_size &&
  atLeast dummy.m_red_size config.m_red_size &&
  atLeast dummy.m_green_size config.m_green_size &&
  atLeast dummy.m_blue_size config.m_blue_size &&
  atLeast dummy.m_alpha_size config.m_alpha_size &&
  atLeast dummy.m_depth_size config.m_depth_size &&
  atLeast dummy.m_stencil_size config.m_stencil_size &&
  atLeast dummy.m_sample_buffers_num config.m_sample_buffers_num &&
  atLeast dummy.m_samples_per_pixel config.m_samples_per_pixel &&
  exact dummy.m_frame_buffer_level config.m_frame_buffer_level &&
  exact dummy.m_config_id config.m_config_id &&
  exact dummy.m_native_visual_type config.m_native_visual_type &&
  exact dummy.m_max_swap_interval config.m_max_swap_interval &&
  exact dummy.m_min_swap_interval config.m_min_swap_interval &&
  exact dummy.m_trans_red_val config.m_trans_red_val &&
  exact dummy.m_trans_green_val config.m_trans_green_val &&
  exact dummy.m_trans_blue_val config.m_trans_blue_val &&
  exact dummy.m_bind_to_tex_rgb config.m_bind_to_tex_rgb &&
  exact dummy.m_bind_to_tex_rgba config.m_bind_to_tex_rgba &&
  exact dummy.m_caveat config.m_caveat &&
  exact dummy.m_native_renderable config.m_native_renderable &&
  exact dummy.m_transparent_type config.m_transparent_type &&
  mask dummy.m_surface_type config.m_surface_type &&
  mask dummy.m_conformant config.m_conformant &&
  mask dummy.m_renderable_type config.m_renderable_type

end EglConfig

/-- An `EglConfig*`. -/
abbrev ConfigPtr := Nat

/-- A display with its list of configs, which are objects of their own. -/
structure EglDisplay where
  m_initialized : Bool
  m_configs : List ConfigPtr
  config : ConfigPtr → EglConfig
  distinct : m_configs.Nodup

namespace EglDisplay

/-- `getConfig` for an id -/
def getConfig (dpy : EglDisplay) (id : EGLint) : Option ConfigPtr :=
  dpy.m_configs.find? fun p => (dpy.config p).m_config_id == id

/-- The loop of `doChooseConfigs` from some place of the list; `configs` tells whether there is an
array. It returns what it stores in the array, and `added`. -/
def chooseLoop (config : ConfigPtr → EglConfig) (dummy : EglConfig) (configs : Bool)
    (config_size : Int) : List ConfigPtr → Nat → List ConfigPtr × Nat
  | [], added => ([], added)
  | p :: m_configs, added =>
      if (added : Int) < config_size ∨ configs = false then
        if (config p).choosen dummy then
          let rest := chooseLoop config dummy configs config_size m_configs (added + 1)
          (if configs then p :: rest.1 else rest.1, rest.2)
        else chooseLoop config dummy configs config_size m_configs added
      else ([], added)

def chooseConfigs (dpy : EglDisplay) (dummy : EglConfig) (configs : Bool) (config_size : Int) :
    List ConfigPtr × Nat :=
  chooseLoop dpy.config dummy configs config_size dpy.m_configs 0

end EglDisplay

end AndroidRenderer.Translator
