import AndroidRenderer.Translator.BufferObjects

/-!
# Buffers that are bound

A buffer object is looked up by the name that is bound, or reached through an array, without a
check. It is there as long as no context uses a name that is deleted: `glDeleteBuffers` leaves
arrays and other contexts as they are, and in GLES_V2 the context itself, too.
-/

namespace AndroidRenderer.Translator

variable {k attribs units : Nat}

/-- The names that a context has bound, and those of its arrays, have buffer objects, and the
arrays point to these. -/
structure BufferContext.Backed (ctx : BufferContext attribs units) (vbo : GLuint → Option Nat) :
    Prop where
  array : ctx.arrayBuffer ≠ 0 → ∃ o, vbo ctx.arrayBuffer = some o
  element : ctx.elementBuffer ≠ 0 → ∃ o, vbo ctx.elementBuffer = some o
  pointer : ∀ array, (ctx.pointers array).isVBO = true →
    ∃ o, (ctx.pointers array).buffer = some o ∧ vbo (ctx.pointers array).bufferName = some o

variable {ctx : BufferContext attribs units} {vbo : GLuint → Option Nat}

theorem BufferContext.Backed.mono {vbo' : GLuint → Option Nat} (h : ctx.Backed vbo)
    (hmono : ∀ name o, vbo name = some o → vbo' name = some o) : ctx.Backed vbo' := by
  refine ⟨fun hne => ?_, fun hne => ?_, fun array hvbo => ?_⟩
  · obtain ⟨o, ho⟩ := h.array hne
    exact ⟨o, hmono _ o ho⟩
  · obtain ⟨o, ho⟩ := h.element hne
    exact ⟨o, hmono _ o ho⟩
  · grind [h.pointer]

theorem BufferContext.Backed.getBuffer (h : ctx.Backed vbo) {target : GLenum}
    (hbound : ctx.isBindedBuffer target = true) : ∃ o, vbo (ctx.getBuffer target) = some o := by
  have hne : ctx.getBuffer target ≠ 0 := of_decide_eq_true hbound
  unfold BufferContext.getBuffer at hne ⊢
  split at hne
  · rename_i htarget
    rw [if_pos htarget]
    exact h.array hne
  · rename_i htarget
    rw [if_neg htarget]
    exact h.element hne

/-- An array is replaced by one that is no array in a buffer, or points to the buffer object of
its name. -/
theorem BufferContext.Backed.modifyPointer (h : ctx.Backed vbo) {array : ArrayId attribs units}
    {f : ArrayPointer → ArrayPointer}
    (hf : (f (ctx.pointers array)).isVBO = true → ∃ o, (f (ctx.pointers array)).buffer = some o ∧
      vbo (f (ctx.pointers array)).bufferName = some o) :
    (ctx.modifyPointer array f).Backed vbo := by
  refine ⟨h.array, h.element, fun array' => ?_⟩
  rw [BufferContext.modifyPointer]
  grind [h.pointer]

namespace SharedBuffers

variable {s s' : SharedBuffers k attribs units} {c : Fin k}

/-- Objects have data, which is a buffer object of their own that has not been deleted. -/
structure Store (s : SharedBuffers k attribs units) : Prop where
  named : ∀ name, s.names.isObject .VERTEXBUFFER (localName name) = true →
    ∃ o, s.vbo name = some o
  live : ∀ name o, s.vbo name = some o → ∃ b, s.objects.get? o = some b
  unique : ∀ name name' o, s.vbo name = some o → s.vbo name' = some o → name = name'

def Backed (s : SharedBuffers k attribs units) : Prop := ∀ c, (s.contexts c).Backed s.vbo

structure Inv (s : SharedBuffers k attribs units) : Prop where
  store : s.Store
  backed : s.Backed

theorem initial_inv (version : Fin k → GLESVersion) :
    (initial version : SharedBuffers k attribs units).Inv := by
  refine ⟨⟨fun name hobject => ?_, fun name o ho => ?_, fun name _ o ho => ?_⟩, fun c => ?_⟩
  · cases hobject
  · cases ho
  · cases ho
  · exact ⟨fun hne => absurd rfl hne, fun hne => absurd rfl hne, fun _ hvbo => by cases hvbo⟩

/-! ## Accesses -/

theorem deref_of_vbo (hstore : s.Store) {n : GLuint} {o : Nat} (ho : s.vbo n = some o) :
    ∃ b, s.deref (some o) = .ok (o, b) := by
  obtain ⟨b, hb⟩ := hstore.live n o ho
  exact ⟨b, by rw [deref, hb]⟩

/-- A step that keeps the invariant if it returns, and faults out of bounds if it does not. -/
structure Safe (x : Except MemoryFault (SharedBuffers k attribs units)) : Prop where
  inv : ∀ s, x = .ok s → s.Inv
  faults : Run.Faults x (· = .outOfBounds)

theorem Safe.ok (hinv : s.Inv) : Safe (.ok s) :=
  ⟨fun _ heq => Except.ok.inj heq ▸ hinv, Run.Faults.pure s⟩

theorem Safe.outOfBounds : Safe (.error .outOfBounds : Except _ (SharedBuffers k attribs units)) :=
  ⟨fun _ heq => (nomatch heq), Run.Faults.error rfl⟩

theorem Safe.bind {α : Type} {x : Except MemoryFault α}
    {f : α → Except MemoryFault (SharedBuffers k attribs units)}
    (hx : Run.Faults x (· = .outOfBounds)) (hf : ∀ a, x = .ok a → Safe (f a)) :
    Safe (x >>= f) := by
  refine ⟨fun s heq => ?_, hx.bind fun a ha => (hf a ha).faults⟩
  obtain ⟨a, ha, heq⟩ := Run.bind_eq_ok.mp heq
  exact (hf a ha).inv s heq

/-- A step for each element of a list. -/
theorem Safe.foldlM {α : Type} {f : SharedBuffers k attribs units → α →
      Except MemoryFault (SharedBuffers k attribs units)}
    (hf : ∀ s a, s.Inv → Safe (f s a)) (as : List α) (hinv : s.Inv) : Safe (as.foldlM f s) := by
  induction as generalizing s with
  | nil => exact .ok hinv
  | cons a as ih =>
      rw [List.foldlM_cons]
      exact .bind (hf s a hinv).faults fun s' hs' => ih ((hf s a hinv).inv s' hs')

/-! ## Changes of the state -/

theorem Inv.modifyContext (hinv : s.Inv)
    {f : BufferContext attribs units → BufferContext attribs units}
    (hf : (f (s.contexts c)).Backed s.vbo) : (s.modifyContext c f).Inv := by
  refine ⟨⟨hinv.store.named, hinv.store.live, hinv.store.unique⟩, fun c' => ?_⟩
  rw [SharedBuffers.modifyContext]
  dsimp only
  by_cases heq : c' = c
  · rw [heq, Function.update_self]
    exact hf
  · rw [Function.update_of_ne heq]
    exact hinv.backed c'

theorem Inv.setGLerror (hinv : s.Inv) (c : Fin k) (error : GLenum) : (s.setGLerror c error).Inv :=
  hinv.modifyContext ⟨(hinv.backed c).array, (hinv.backed c).element, (hinv.backed c).pointer⟩

theorem Inv.setObject (hinv : s.Inv) (o : Nat) (b : BufferObject) : (s.setObject o b).Inv := by
  refine ⟨⟨hinv.store.named, fun name o' ho' => ?_, hinv.store.unique⟩, hinv.backed⟩
  obtain ⟨b', hb'⟩ := hinv.store.live name o' ho'
  grind [SharedBuffers.setObject]

/-- The name has the object it had, or the next one. -/
@[grind =] theorem vbo_newBuffer (s : SharedBuffers k attribs units) (name name' : GLuint) :
    (s.newBuffer name).vbo name' =
      if name' = name then some ((s.vbo name).getD s.objects.next) else s.vbo name' := by
  unfold newBuffer
  cases hname : s.vbo name with
  | some o => grind
  | none =>
      rw [Option.isSome_none, if_neg Bool.false_ne_true, vbo]
      refine (ShareGroup.getObjectData_setObjectData _ _ _ _ _).trans ?_
      simp only [localName_inj]
      rfl

theorem get?_newBuffer (s : SharedBuffers k attribs units) (name : GLuint) {o : Nat}
    {b : BufferObject} (hb : s.objects.get? o = some b) :
    (s.newBuffer name).objects.get? o = some b := by
  unfold newBuffer
  split
  · exact hb
  · dsimp only
    rw [Registry.get?_insert, if_neg (Nat.ne_of_lt (Registry.lt_next_of_get? hb)), hb]

@[simp] theorem contexts_newBuffer (s : SharedBuffers k attribs units) (name : GLuint) :
    (s.newBuffer name).contexts = s.contexts := by
  unfold newBuffer
  split <;> rfl

theorem isObject_newBuffer (s : SharedBuffers k attribs units) (name : GLuint)
    (name' : ObjectLocalName) :
    (s.newBuffer name).names.isObject .VERTEXBUFFER name' =
      s.names.isObject .VERTEXBUFFER name' := by
  unfold newBuffer
  split <;> rfl

theorem Inv.newBuffer (hinv : s.Inv) {names : ObjectNames Nat} {name : GLuint}
    (hdata : names.objectsData = s.names.objectsData)
    (hobject : ∀ name', names.isObject .VERTEXBUFFER (localName name') = true →
      name' = name ∨ s.names.isObject .VERTEXBUFFER (localName name') = true) :
    (({ s with names } : SharedBuffers k attribs units).newBuffer name).Inv := by
  have hvbo : ({ s with names } : SharedBuffers k attribs units).vbo = s.vbo := by
    grind [vbo, ShareGroup.getObjectData]
  have hnew : ∀ name', (({ s with names } : SharedBuffers k attribs units).newBuffer name).vbo
      name' = if name' = name then some ((s.vbo name).getD s.objects.next) else s.vbo name' := by
    intro name'
    rw [vbo_newBuffer, hvbo]
  have hnext : ∀ name' o, s.vbo name' = some o → o ≠ s.objects.next := by
    intro name' o ho
    obtain ⟨b, hb⟩ := hinv.store.live name' o ho
    exact Nat.ne_of_lt (Registry.lt_next_of_get? hb)
  have hold : ∀ name' o, (({ s with names } : SharedBuffers k attribs units).newBuffer name).vbo
      name' = some o → s.vbo name' = some o ∨
        name' = name ∧ s.vbo name = none ∧ o = s.objects.next := by
    intro name' o ho
    rw [hnew] at ho
    split at ho
    · rename_i heq
      subst heq
      cases hname : s.vbo name' with
      | some o' => grind
      | none => grind
    · exact .inl ho
  refine ⟨⟨fun name' hname' => ?_, fun name' o ho => ?_, fun name₁ name₂ o h₁ h₂ => ?_⟩,
    fun c => ?_⟩
  · rw [isObject_newBuffer] at hname'
    rw [hnew]
    split
    · exact ⟨_, rfl⟩
    · grind [hinv.store.named]
  · rcases hold name' o ho with ho | ⟨rfl, hnone, rfl⟩
    · obtain ⟨b, hb⟩ := hinv.store.live name' o ho
      exact ⟨b, get?_newBuffer _ name hb⟩
    · simp [SharedBuffers.newBuffer, Registry.get?_insert, hvbo, hnone]
  · grind [hinv.store.unique]
  · rw [contexts_newBuffer]
    refine (hinv.backed c).mono fun name' o ho => ?_
    grind

/-! ## Calls -/

theorem genBuffer_inv (hinv : s.Inv) (globalName : GLuint) : (s.genBuffer globalName).1.Inv := by
  refine hinv.newBuffer rfl fun name' hname' => ?_
  have hobject := (s.names.isObject_genName .VERTEXBUFFER _ (localName name') globalName).symm.trans
    hname'
  rw [Bool.or_eq_true, decide_eq_true_eq] at hobject
  refine hobject.imp_left fun heq => ?_
  rw [← heq, clientName_localName]

theorem glGenBuffers_inv (hinv : s.Inv) (c : Fin k) (n : Int) (globalNames : Nat → GLuint) :
    (s.glGenBuffers c n globalNames).1.Inv := by
  unfold glGenBuffers
  split
  · exact hinv.setGLerror c _
  · refine List.foldlRecOn
      (motive := fun r : SharedBuffers k attribs units × List GLuint => r.1.Inv) _ _ hinv
      fun r hr i _ => ?_
    exact genBuffer_inv hr (globalNames i)

theorem glBindBuffer_safe (hinv : s.Inv) (c : Fin k) (target : GLenum) (buffer gen : GLuint) :
    Safe (s.glBindBuffer c target buffer gen) := by
  unfold glBindBuffer
  split
  · exact .ok (hinv.setGLerror c _)
  · have hbound : ∃ s' : SharedBuffers k attribs units, s'.Inv ∧
        (buffer ≠ 0 → ∃ o, s'.vbo buffer = some o) ∧ s' =
          if buffer ≠ 0 ∧ !s.names.isObject .VERTEXBUFFER (localName buffer) then
            ({ s with names := s.names.modify (·.genName .VERTEXBUFFER (localName buffer) gen) } :
              SharedBuffers k attribs units).newBuffer buffer
          else s := by
      refine ⟨_, ?_, ?_, rfl⟩
      · split
        · refine hinv.newBuffer rfl fun name' hname' => ?_
          have hobject := (s.names.isObject_genName .VERTEXBUFFER (localName buffer)
            (localName name') gen).symm.trans hname'
          rw [Bool.or_eq_true, decide_eq_true_eq, localName_inj] at hobject
          exact hobject
        · exact hinv
      · intro hne
        split
        · simp [vbo_newBuffer]
        · grind [hinv.store.named]
    obtain ⟨s', hinv', hvbo, hs'⟩ := hbound
    rw [← hs']
    dsimp only
    have hcontext : (s'.modifyContext c (·.bindBuffer target buffer)).Inv := by
      refine hinv'.modifyContext ?_
      unfold BufferContext.bindBuffer
      split
      · exact ⟨hvbo, (hinv'.backed c).element, (hinv'.backed c).pointer⟩
      · exact ⟨(hinv'.backed c).array, hvbo, (hinv'.backed c).pointer⟩
    split
    · rename_i hne
      obtain ⟨o, ho⟩ := hvbo hne
      obtain ⟨b, hb⟩ := deref_of_vbo hcontext.store (n := buffer) ho
      have hlookup : (s'.modifyContext c (·.bindBuffer target buffer)).vbo buffer = some o := ho
      rw [hlookup, hb]
      exact .ok (hcontext.setObject o _)
    · exact .ok hcontext

/-- The buffer that is bound can be accessed. -/
theorem deref_getBuffer (hinv : s.Inv) {target : GLenum}
    (hbound : (s.contexts c).isBindedBuffer target = true) :
    ∃ o b, s.deref (s.vbo ((s.contexts c).getBuffer target)) = .ok (o, b) := by
  obtain ⟨o, ho⟩ := (hinv.backed c).getBuffer hbound
  grind [deref_of_vbo, hinv.store]

theorem glBufferData_safe (hinv : s.Inv) (c : Fin k) (target : GLenum) (data : List UInt8)
    (usage : GLenum) : Safe (s.glBufferData c target data usage) := by
  unfold glBufferData
  split
  · exact .ok (hinv.setGLerror c _)
  · split
    · exact .ok (hinv.setGLerror c _)
    · rename_i hbound
      obtain ⟨o, b, hderef⟩ := deref_getBuffer hinv (by simpa using hbound)
      rw [hderef]
      exact .ok (hinv.setObject o _)

theorem glBufferSubData_safe (hinv : s.Inv) (c : Fin k) (target : GLenum) (offset : Int)
    (data : List UInt8) : Safe (s.glBufferSubData c target offset data) := by
  unfold glBufferSubData
  split
  · exact .ok (hinv.setGLerror c _)
  · rename_i hbound
    split
    · exact .ok (hinv.setGLerror c _)
    · have hname : (s.contexts c).getBuffer target ≠ 0 := by
        simpa [BufferContext.isBindedBuffer] using hbound
      obtain ⟨o, b, hderef⟩ := deref_getBuffer hinv (by simpa using hbound)
      simp only [setBufferSubData, if_neg hname, hderef, bind, Except.bind]
      cases b.buffer.setSubBuffer offset data with
      | error fault => exact .outOfBounds
      | ok buffer =>
          cases buffer with
          | none => exact .ok (hinv.setGLerror c _)
          | some buffer => exact .ok (hinv.setObject o _)

theorem glGetBufferParameteriv_safe (hinv : s.Inv) (c : Fin k) (target pname : GLenum) :
    Safe ((s.glGetBufferParameteriv c target pname).map Prod.fst) := by
  unfold glGetBufferParameteriv
  split
  · exact .ok (hinv.setGLerror c _)
  · split
    · exact .ok (hinv.setGLerror c _)
    · rename_i hbound
      obtain ⟨o, b, hderef⟩ := deref_getBuffer hinv (by simpa using hbound)
      rw [hderef]
      exact .ok hinv

theorem setPointer_safe (hinv : s.Inv) (c : Fin k) (arrType : ArrayId attribs units) (size : Int)
    (type : GLenum) (stride : Int) (data : UInt64) (normalize : Bool) :
    Safe (s.setPointer c arrType size type stride data normalize) := by
  unfold setPointer
  dsimp only
  split
  · rename_i hne
    obtain ⟨o, ho⟩ := (hinv.backed c).array hne
    rw [ho]
    have hinv' : (s.modifyContext c (·.modifyPointer arrType (·.setBuffer size type stride (some o)
        (s.contexts c).arrayBuffer data.toUInt32 normalize))).Inv :=
      hinv.modifyContext ((hinv.backed c).modifyPointer fun _ => ⟨o, rfl, ho⟩)
    obtain ⟨b, hb⟩ := deref_of_vbo hinv'.store (n := (s.contexts c).arrayBuffer) ho
    rw [hb]
    exact .ok hinv'
  · exact .ok (hinv.modifyContext ((hinv.backed c).modifyPointer fun hvbo => by cases hvbo))

theorem texCoordArray_faults (ctx : BufferContext attribs units) :
    Run.Faults ctx.texCoordArray (· = .outOfBounds) := by
  unfold BufferContext.texCoordArray
  split
  · exact .pure _
  · exact .error rfl

theorem clientPointer_safe (hinv : s.Inv) (c : Fin k) (params types : Bool)
    {arrType : Except MemoryFault (ArrayId attribs units)}
    (harr : Run.Faults arrType (· = .outOfBounds)) (size : Int) (type : GLenum) (stride : Int)
    (pointer : UInt64) : Safe (s.clientPointer c params types arrType size type stride pointer) := by
  unfold clientPointer
  split
  · exact .ok (hinv.setGLerror c _)
  · split
    · exact .ok (hinv.setGLerror c _)
    · exact .bind harr fun array _ => setPointer_safe hinv c array size type stride pointer false

theorem enableArr_inv (hinv : s.Inv) (c : Fin k) (array : ArrayId attribs units) (enable : Bool) :
    (s.enableArr c array enable).Inv :=
  hinv.modifyContext ((hinv.backed c).modifyPointer ((hinv.backed c).pointer array))

theorem glClientState_safe (hinv : s.Inv) (c : Fin k) (array : GLenum) (enable : Bool) :
    Safe (s.glClientState c array enable) := by
  have hfaults : Run.Faults ((s.contexts c).clientArray array) (· = .outOfBounds) := by
    unfold BufferContext.clientArray
    iterate 4
      split
      · exact .pure _
    split
    · intro e he
      cases htex : (s.contexts c).texCoordArray with
      | error e' =>
          rw [htex] at he
          cases he
          exact texCoordArray_faults _ _ htex
      | ok array =>
          rw [htex] at he
          cases he
    · exact .pure _
  unfold glClientState
  cases harr : (s.contexts c).clientArray array with
  | error e =>
      cases hfaults e harr
      exact .outOfBounds
  | ok arrType =>
      cases arrType with
      | none => exact .ok (hinv.setGLerror c _)
      | some arrType => exact .ok (enableArr_inv hinv c arrType enable)

theorem glVertexAttribArray_inv (hinv : s.Inv) (c : Fin k) (index : GLuint) (enable : Bool) :
    (s.glVertexAttribArray c index enable).Inv := by
  unfold glVertexAttribArray
  grind [enableArr_inv, hinv.setGLerror]

theorem glClientActiveTexture_inv (hinv : s.Inv) (c : Fin k) (texture : GLenum) :
    (s.glClientActiveTexture c texture).Inv := by
  unfold glClientActiveTexture
  split
  · exact hinv.setGLerror c _
  · exact hinv.modifyContext ⟨(hinv.backed c).array, (hinv.backed c).element, (hinv.backed c).pointer⟩

/-! ## Draws -/

section Draws

variable (convert : Draw → ArrayPointer → GLESbuffer → GLESbuffer)

theorem setupArray_safe (c : Fin k) (d : Draw) (s : SharedBuffers k attribs units)
    (array : ArrayId attribs units) (hinv : s.Inv) : Safe (s.setupArray convert c d array) := by
  unfold setupArray
  dsimp only
  split
  · rename_i hused
    obtain ⟨o, hbuffer, ho⟩ := (hinv.backed c).pointer array (Bool.and_eq_true_iff.mp hused).2
    obtain ⟨b, hb⟩ := deref_of_vbo hinv.store ho
    rw [hbuffer, hb]
    split
    · exact .ok (hinv.setObject o _)
    · exact .ok hinv
  · exact .ok hinv

theorem setupArraysPointers_safe (hinv : s.Inv) (c : Fin k) (d : Draw) :
    Safe (s.setupArraysPointers convert c d) := by
  have hfaults : Run.Faults (s.contexts c).drawnArrays (· = .outOfBounds) := by
    unfold BufferContext.drawnArrays
    split
    · intro e he
      cases htex : (s.contexts c).texCoordArray with
      | error e' =>
          rw [htex] at he
          cases he
          exact texCoordArray_faults _ _ htex
      | ok array =>
          rw [htex] at he
          cases he
    · exact .pure _
  exact .bind hfaults fun arrays _ => .foldlM (setupArray_safe convert c d) arrays hinv

theorem glDrawArrays_safe (hinv : s.Inv) (c : Fin k) (mode : GLenum) (first count : Int) :
    Safe (s.glDrawArrays convert c mode first count) := by
  unfold glDrawArrays
  split
  · exact .ok (hinv.setGLerror c _)
  · split
    · exact .ok (hinv.setGLerror c _)
    · split
      · exact .ok hinv
      · exact setupArraysPointers_safe convert hinv c _

theorem glDrawElements_safe (hinv : s.Inv) (c : Fin k) (mode : GLenum) (count : Int)
    (type : GLenum) (elementsIndices : UInt64) (memory : LittleEndian.Mem) :
    Safe (s.glDrawElements convert c mode count type elementsIndices memory) := by
  unfold glDrawElements
  split
  · exact .ok (hinv.setGLerror c _)
  · split
    · exact .ok (hinv.setGLerror c _)
    · split
      · exact .ok hinv
      · refine .bind ?_ fun indices _ => setupArraysPointers_safe convert hinv c _
        unfold drawIndices
        split
        · rename_i hbound
          obtain ⟨o, b, hderef⟩ := deref_getBuffer hinv hbound
          rw [hderef]
          exact .pure _
        · exact .pure _

end Draws

/-! ## Deletion -/

@[grind =] theorem vbo_deleteBuffer (s : SharedBuffers k attribs units) (c : Fin k)
    (buffer name : GLuint) :
    (s.deleteBuffer c buffer).vbo name = if name = buffer then none else s.vbo name := by
  have hdelete := s.names.getObjectData_deleteName .VERTEXBUFFER (localName buffer)
    (localName name)
  simp only [localName_inj] at hdelete
  unfold deleteBuffer
  dsimp only
  split <;> exact hdelete

theorem store_deleteBuffer (hstore : s.Store) (c : Fin k) (buffer : GLuint) :
    (s.deleteBuffer c buffer).Store := by
  have hobject : ∀ name, (s.deleteBuffer c buffer).names.isObject .VERTEXBUFFER (localName name) =
      (!decide (name = buffer) && s.names.isObject .VERTEXBUFFER (localName name)) := by
    intro name
    have hdelete := s.names.isObject_deleteName .VERTEXBUFFER (localName buffer) (localName name)
    simp only [localName_inj] at hdelete
    unfold deleteBuffer
    dsimp only
    split <;> exact hdelete
  have hobjects : (s.deleteBuffer c buffer).objects =
      (s.vbo buffer).elim s.objects s.objects.remove := by
    unfold deleteBuffer
    dsimp only
    split <;> rfl
  refine ⟨fun name hname => ?_, fun name o ho => ?_, fun name name' o ho ho' => ?_⟩
  · grind [hstore.named]
  · rw [vbo_deleteBuffer] at ho
    split at ho
    · cases ho
    · rename_i hne
      obtain ⟨b, hb⟩ := hstore.live name o ho
      refine ⟨b, ?_⟩
      rw [hobjects]
      cases hbuffer : s.vbo buffer with
      | none => exact hb
      | some o' => grind [hstore.unique]
  · grind [hstore.unique]

theorem contexts_deleteBuffer (s : SharedBuffers k attribs units) (c c' : Fin k)
    (buffer : GLuint) :
    (s.deleteBuffer c buffer).contexts c' =
      if c' = c ∧ (s.contexts c).version = .GLES_CM then (s.contexts c').unbindBuffer buffer
      else s.contexts c' := by
  unfold deleteBuffer
  dsimp only
  by_cases hversion : (s.contexts c).version = .GLES_CM
  · rw [if_pos hversion, SharedBuffers.modifyContext]
    grind
  · simp [hversion]

/-- The state after a `glDeleteBuffers`. -/
structure Deleted (s s' : SharedBuffers k attribs units) (c : Fin k) (buffers : List GLuint) :
    Prop where
  vbo : ∀ name, s'.vbo name = if name ∈ buffers then none else s.vbo name
  version : ∀ c', (s'.contexts c').version = (s.contexts c').version
  pointers : ∀ c', (s'.contexts c').pointers = (s.contexts c').pointers
  array : ∀ c', (s'.contexts c').arrayBuffer =
    if (c' = c ∧ (s.contexts c).version = .GLES_CM) ∧ (s.contexts c').arrayBuffer ∈ buffers then 0
    else (s.contexts c').arrayBuffer
  element : ∀ c', (s'.contexts c').elementBuffer =
    if (c' = c ∧ (s.contexts c).version = .GLES_CM) ∧ (s.contexts c').elementBuffer ∈ buffers then 0
    else (s.contexts c').elementBuffer

/-- A name that is unbound with the first of the names or with the others. -/
theorem unbound_cons {own : Prop} [Decidable own] {bound buffer : GLuint} {buffers : List GLuint} :
    (if own ∧ (if own then if bound = buffer then 0 else bound else bound) ∈ buffers then 0
      else if own then if bound = buffer then 0 else bound else bound) =
    if own ∧ bound ∈ buffer :: buffers then 0 else bound := by
  by_cases hown : own
  · grind
  · simp [hown]

theorem deleteBuffers_deleted (hstore : s.Store) (c : Fin k) (buffers : List GLuint) :
    (buffers.foldl (fun s buffer => s.deleteBuffer c buffer) s).Store ∧
      Deleted s (buffers.foldl (fun s buffer => s.deleteBuffer c buffer) s) c buffers := by
  induction buffers generalizing s with
  | nil =>
      refine ⟨hstore, fun name => ?_, fun _ => rfl, fun _ => rfl, fun c' => ?_, fun c' => ?_⟩
      · rfl
      · simp
      · rw [if_neg fun hand => List.not_mem_nil hand.2]
        rfl
  | cons buffer buffers ih =>
      rw [List.foldl_cons]
      obtain ⟨hstore', hrest⟩ := ih (store_deleteBuffer hstore c buffer)
      have hversion : ∀ c', ((s.deleteBuffer c buffer).contexts c').version =
          (s.contexts c').version := by
        intro c'
        rw [contexts_deleteBuffer]
        split <;> rfl
      refine ⟨hstore', fun name => ?_, fun c' => ?_, fun c' => ?_, fun c' => ?_, fun c' => ?_⟩
      · rw [hrest.vbo, vbo_deleteBuffer]
        by_cases heq : name = buffer
        · simp [heq]
        · simp [heq]
      · rw [hrest.version, hversion]
      · rw [hrest.pointers, contexts_deleteBuffer]
        split <;> rfl
      · rw [hrest.array, hversion, ← unbound_cons, contexts_deleteBuffer,
          apply_ite BufferContext.arrayBuffer]
        rfl
      · rw [hrest.element, hversion, ← unbound_cons, contexts_deleteBuffer,
          apply_ite BufferContext.elementBuffer]
        rfl

/-- A context uses the buffer of a name: it has it bound, and will not unbind it in a deletion by
the context `c`, or has an array in it. -/
def InUse (s : SharedBuffers k attribs units) (c c' : Fin k) (buffer : GLuint) : Prop :=
  (buffer ≠ 0 ∧ ¬(c' = c ∧ (s.contexts c).version = .GLES_CM) ∧
      ((s.contexts c').arrayBuffer = buffer ∨ (s.contexts c').elementBuffer = buffer)) ∨
    ∃ array, ((s.contexts c').pointers array).isVBO = true ∧
      ((s.contexts c').pointers array).bufferName = buffer

/-- No buffer is deleted that is in use. -/
def KeepsBuffers (s : SharedBuffers k attribs units) : Fin k × BufferCall → Prop
  | (c, .glDeleteBuffers n buffers) =>
      0 ≤ n → ∀ buffer ∈ buffers.take n.toNat, ∀ c', ¬s.InUse c c' buffer
  | _ => True

theorem backed_deleted_iff (hinv : s.Inv) {buffers : List GLuint}
    (hdeleted : Deleted s s' c buffers) :
    s'.Backed ↔ ∀ buffer ∈ buffers, ∀ c', ¬s.InUse c c' buffer := by
  constructor
  · intro hbacked buffer hmem c' huse
    have hnone : s'.vbo buffer = none := by rw [hdeleted.vbo, if_pos hmem]
    have hnot : ¬∃ o, s'.vbo buffer = some o := by
      rintro ⟨o, ho⟩
      rw [hnone] at ho
      cases ho
    rcases huse with ⟨hne, hother, harray | helement⟩ | ⟨array, hvbo, hname⟩
    · have harray' : (s'.contexts c').arrayBuffer = buffer := by
        rw [hdeleted.array, if_neg fun hand => hother hand.1, harray]
      exact hnot (harray' ▸ (hbacked c').array (harray' ▸ hne))
    · have helement' : (s'.contexts c').elementBuffer = buffer := by
        rw [hdeleted.element, if_neg fun hand => hother hand.1, helement]
      exact hnot (helement' ▸ (hbacked c').element (helement' ▸ hne))
    · rw [← congrFun (hdeleted.pointers c') array] at hvbo hname
      obtain ⟨o, -, ho⟩ := (hbacked c').pointer array hvbo
      exact hnot ⟨o, hname ▸ ho⟩
  · intro hunused c'
    have hkept : ∀ bound, bound ≠ 0 → (∃ o, s.vbo bound = some o) →
        (bound ∈ buffers → ¬(c' = c ∧ (s.contexts c).version = .GLES_CM) →
          (s.contexts c').arrayBuffer ≠ bound ∧ (s.contexts c').elementBuffer ≠ bound) := by
      intro bound hne _ hmem hother
      refine ⟨fun heq => ?_, fun heq => ?_⟩
      · exact hunused bound hmem c' (.inl ⟨hne, hother, .inl heq⟩)
      · exact hunused bound hmem c' (.inl ⟨hne, hother, .inr heq⟩)
    refine ⟨fun hne => ?_, fun hne => ?_, fun array hvbo => ?_⟩
    · rw [hdeleted.array] at hne ⊢
      split at hne
      · exact absurd rfl hne
      · rename_i hnot
        obtain ⟨o, ho⟩ := (hinv.backed c').array hne
        grind [hdeleted.vbo]
    · rw [hdeleted.element] at hne ⊢
      split at hne
      · exact absurd rfl hne
      · rename_i hnot
        obtain ⟨o, ho⟩ := (hinv.backed c').element hne
        rw [if_neg hnot, hdeleted.vbo, if_neg, ho]
        · exact ⟨o, rfl⟩
        · intro hmem
          exact (hkept _ hne ⟨o, ho⟩ hmem fun hown => hnot ⟨hown, hmem⟩).2 rfl
    · rw [hdeleted.pointers] at hvbo ⊢
      obtain ⟨o, hbuffer, ho⟩ := (hinv.backed c').pointer array hvbo
      refine ⟨o, hbuffer, ?_⟩
      rw [hdeleted.vbo, if_neg, ho]
      intro hmem
      exact hunused _ hmem c' (.inr ⟨array, hvbo, rfl⟩)

/-! ## Runs -/

section Runs

variable (convert : Draw → ArrayPointer → GLESbuffer → GLESbuffer)

theorem call_safe (hinv : s.Inv) (c : Fin k) {call : BufferCall}
    (hcall : ∀ n buffers, call ≠ .glDeleteBuffers n buffers) : Safe (s.call convert c call) := by
  cases call with
  | glGenBuffers n globalNames => exact .ok (glGenBuffers_inv hinv c n globalNames)
  | glBindBuffer target buffer gen => exact glBindBuffer_safe hinv c target buffer gen
  | glDeleteBuffers n buffers => exact absurd rfl (hcall n buffers)
  | glBufferData target data usage => exact glBufferData_safe hinv c target data usage
  | glBufferSubData target offset data => exact glBufferSubData_safe hinv c target offset data
  | glGetBufferParameteriv target pname => exact glGetBufferParameteriv_safe hinv c target pname
  | glVertexPointer size type stride pointer =>
      exact clientPointer_safe hinv c _ _ (.pure _) size type stride pointer
  | glNormalPointer type stride pointer =>
      exact clientPointer_safe hinv c _ _ (.pure _) 3 type stride pointer
  | glColorPointer size type stride pointer =>
      exact clientPointer_safe hinv c _ _ (.pure _) size type stride pointer
  | glTexCoordPointer size type stride pointer =>
      exact clientPointer_safe hinv c _ _ (texCoordArray_faults _) size type stride pointer
  | glPointSizePointerOES type stride pointer =>
      exact clientPointer_safe hinv c _ _ (.pure _) 1 type stride pointer
  | glVertexAttribPointer indx size type normalized stride ptr =>
      change Safe (s.glVertexAttribPointer c indx size type normalized stride ptr)
      unfold glVertexAttribPointer
      split
      · exact setPointer_safe hinv c _ size _ stride ptr normalized
      · exact .ok (hinv.setGLerror c _)
  | glClientState array enable => exact glClientState_safe hinv c array enable
  | glVertexAttribArray index enable => exact .ok (glVertexAttribArray_inv hinv c index enable)
  | glClientActiveTexture texture => exact .ok (glClientActiveTexture_inv hinv c texture)
  | glDrawArrays mode first count => exact glDrawArrays_safe convert hinv c mode first count
  | glDrawElements mode count type elementsIndices memory =>
      exact glDrawElements_safe convert hinv c mode count type elementsIndices memory

/-- A step faults out of bounds if at all, and what the contexts use is there after it if and only
if it meets the condition. -/
theorem step_spec (hinv : s.Inv) (event : Fin k × BufferCall) :
    Run.Faults (s.step convert event) (· = .outOfBounds) ∧
      ∀ s', s.step convert event = .ok s' →
        (s.KeepsBuffers event → s'.Inv) ∧ (s'.Backed → s.KeepsBuffers event) := by
  obtain ⟨c, call⟩ := event
  by_cases hdelete : ∃ n buffers, call = .glDeleteBuffers n buffers
  · obtain ⟨n, buffers, rfl⟩ := hdelete
    refine ⟨.pure _, ?_⟩
    rintro s' heq
    cases heq
    unfold glDeleteBuffers
    split
    · rename_i hneg
      exact ⟨fun _ => hinv.setGLerror c _, fun _ hpos => absurd hneg (Int.not_lt.mpr hpos)⟩
    · rename_i hpos
      obtain ⟨hstore, hdeleted⟩ := deleteBuffers_deleted hinv.store c (buffers.take n.toNat)
      have hiff := backed_deleted_iff hinv hdeleted
      exact ⟨fun hkeeps => ⟨hstore, hiff.mpr (hkeeps (Int.not_lt.mp hpos))⟩,
        fun hbacked _ => hiff.mp hbacked⟩
  · have hkeeps : s.KeepsBuffers (c, call) := by
      cases call <;> try trivial
      rename_i n buffers
      exact absurd ⟨n, buffers, rfl⟩ hdelete
    have hsafe : Safe (s.step convert (c, call)) := by
      unfold step
      split
      · exact call_safe convert hinv c fun n buffers heq => hdelete ⟨n, buffers, heq⟩
      · exact .ok hinv
    exact ⟨hsafe.faults, fun s' heq => ⟨fun _ => hsafe.inv s' heq, fun _ => hkeeps⟩⟩

/-- As long as no buffer is deleted that a context has bound, or has an array in, the names that
contexts have bound and those of their arrays have buffer objects, and no call follows a pointer
that is null or dangling. A call keeps this if and only if it meets the condition. -/
theorem backed_of_keepsBuffers {version : Fin k → GLESVersion}
    (h : Run.Reach (step convert) KeepsBuffers (initial version) s) :
    s.Backed ∧ ∀ event, Run.Faults (s.step convert event) (· = .outOfBounds) ∧
      ∀ s', s.step convert event = .ok s' → (s'.Backed ↔ s.KeepsBuffers event) := by
  have hinv : s.Inv := h.invariant (I := Inv) (initial_inv version)
    fun t event u hinv hkeeps hstep => ((step_spec convert hinv event).2 u hstep).1 hkeeps
  refine ⟨hinv.backed, fun event => ?_⟩
  obtain ⟨hfaults, hsteps⟩ := step_spec convert hinv event
  refine ⟨hfaults, fun s' heq => ?_⟩
  constructor
  · exact (hsteps s' heq).2
  · intro hkeeps
    exact ((hsteps s' heq).1 hkeeps).backed

end Runs

/-! ## Runs with two contexts -/

def bothVersions (c : Fin 2) : GLESVersion := if c.val = 0 then .GLES_CM else .GLES_V2

def converted : Draw → ArrayPointer → GLESbuffer → GLESbuffer := fun _ _ b => b

/-- Nothing is deleted. -/
def keepsTest (_ : SharedBuffers k attribs units) : Fin k × BufferCall → Bool
  | (_, .glDeleteBuffers n _) => n < 0
  | _ => true

theorem keepsTest_sound (s : SharedBuffers k attribs units) (event : Fin k × BufferCall)
    (h : keepsTest s event = true) : s.KeepsBuffers event := by
  obtain ⟨c, call⟩ := event
  cases call with
  | glDeleteBuffers n buffers =>
      intro hpos
      exact absurd (of_decide_eq_true h) (Int.not_lt.mpr hpos)
  | _ => trivial

/-- A buffer is filled by one context, and drawn from by the other. -/
theorem backed_of_keepsBuffers_run :
    ∃ s : SharedBuffers 2 1 1, (s.contexts 1).arrayBuffer = 5 ∧ s.Backed ∧
      ∀ event, Run.Faults (s.step converted event) (· = .outOfBounds) ∧
        ∀ s', s.step converted event = .ok s' → (s'.Backed ↔ s.KeepsBuffers event) := by
  have hrun : Run.check (step converted) keepsTest
      (fun s : SharedBuffers 2 1 1 => (s.contexts 1).arrayBuffer = 5)
      (initial bothVersions)
      [(0, .glBindBuffer GL_ARRAY_BUFFER 5 1),
        (0, .glBufferData GL_ARRAY_BUFFER [1, 2, 3, 4] GL_STATIC_DRAW),
        (1, .glBindBuffer GL_ARRAY_BUFFER 5 2), (1, .glVertexAttribPointer 0 1 GL_FLOAT false 0 0),
        (1, .glVertexAttribArray 0 true), (1, .glDrawArrays 0 0 1)] = true := by
    decide +kernel
  obtain ⟨s, hreach, hs⟩ := Run.exists_reach_of_check keepsTest_sound hrun
  exact ⟨s, of_decide_eq_true hs, backed_of_keepsBuffers converted hreach⟩

/-- The buffer of the other context is deleted, which then fills it through a null pointer. -/
theorem deleted_buffer_bound :
    ∃ s : SharedBuffers 2 1 1,
      Run.Reach (step converted) (fun _ _ => True) (initial bothVersions) s ∧ ¬s.Backed ∧
        s.step converted (1, .glBufferData GL_ARRAY_BUFFER [1] GL_STATIC_DRAW) =
          .error .nullPointer := by
  have hrun : Run.check (step converted) (fun _ _ => true)
      (fun s : SharedBuffers 2 1 1 => (s.contexts 1).arrayBuffer = 5 ∧ s.vbo 5 = none)
      (initial bothVersions)
      [(1, .glBindBuffer GL_ARRAY_BUFFER 5 1), (0, .glDeleteBuffers 1 [5])] = true := by
    decide +kernel
  obtain ⟨s, hreach, hs⟩ := Run.exists_reach_of_check (fun _ _ _ => trivial) hrun
  obtain ⟨hbound, hnone⟩ := of_decide_eq_true hs
  have hbinded : (s.contexts 1).isBindedBuffer GL_ARRAY_BUFFER = true := by
    apply decide_eq_true
    rw [BufferContext.getBuffer, if_pos rfl, hbound]
    decide
  refine ⟨s, hreach, fun hbacked => ?_, ?_⟩
  · obtain ⟨o, ho⟩ := (hbacked 1).array (of_decide_eq_true hbinded)
    rw [hbound, hnone] at ho
    cases ho
  · have htarget : bufferTarget GL_ARRAY_BUFFER = true := rfl
    change s.glBufferData 1 GL_ARRAY_BUFFER [1] GL_STATIC_DRAW = _
    rw [glBufferData, htarget, hbinded, BufferContext.getBuffer, if_pos rfl, hbound, hnone]
    rfl

end SharedBuffers

end AndroidRenderer.Translator
