import AndroidRenderer.Lib.CString

/-!
# Names of functions in the key file

`DmTrace` collects the functions of a trace for its key file. A name such as
`java.util.LinkedList.size()I` is recorded as a class, a method and a signature. To find them,
`parseAndAddFunction` cuts the string of its caller at the parenthesis and at the dot.
-/

namespace AndroidRenderer.Qtools

open CString

/-- `FunctionRecord`; the name is the number of its string. -/
structure FunctionRecord where
  id : Int
  name : Nat
  deriving DecidableEq

/-- The functions of a `DmTrace`, and the strings of the program. -/
structure DmTrace where
  functions : List FunctionRecord
  strings : List (List UInt8)
  deriving DecidableEq

namespace DmTrace

def buffer (t : DmTrace) (name : Nat) : List UInt8 := t.strings.getD name []

def text (t : DmTrace) (name : Nat) : List UInt8 := ofBuffer (t.buffer name)

def store (t : DmTrace) (name : Nat) (b : List UInt8) : DmTrace :=
  { t with strings := t.strings.set name b }

def addFunction (t : DmTrace) (functionId : Int) (name : Nat) : DmTrace :=
  { t with functions := t.functions ++ [⟨functionId, name⟩] }

/-- `addFunction` with the parts of the name, into a new string. -/
def addFunctionParts (t : DmTrace) (functionId : Int) (clazz method sig : List UInt8) : DmTrace :=
  { t with strings := t.strings ++ [clazz ++ 9 :: (method ++ 9 :: sig)] }.addFunction functionId
    t.strings.length

def parseAndAddFunction (t : DmTrace) (functionId : Int) (name : Nat) : DmTrace :=
  match strchr (t.text name) 40 with
  | none => t.addFunction functionId name
  | some paren =>
      let sig := ofBuffer ((t.buffer name).drop paren)
      let cut := (t.buffer name).set paren 0
      let notFound := (t.store name (cut.set paren 40)).addFunction functionId name
      match strrchr (ofBuffer cut) 46 with
      | none => notFound
      | some dot =>
          if dot = 0 then notFound
          else
            let method := ofBuffer (cut.drop (dot + 1))
            let cut := cut.set dot 0
            (t.store name cut).addFunctionParts functionId (ofBuffer cut) method sig

/-! ## The parts of a name -/

/-- There is a parenthesis, and in front of the first one a dot behind the first character. -/
def Splits (text : List UInt8) : Prop :=
  40 ∈ text ∧ 46 ∈ (text.takeWhile (· ≠ 40)).drop 1

instance (text : List UInt8) : Decidable (Splits text) := inferInstanceAs (Decidable (_ ∧ _))

/-- The class ends at the last dot in front of the signature, which begins with the first
parenthesis. -/
structure PartsOf (text clazz method sig : List UInt8) : Prop where
  joined : text = clazz ++ 46 :: (method ++ sig)
  method_dot : 46 ∉ method
  paren : 40 ∉ clazz ++ 46 :: method
  sig_paren : sig.head? = some 40

variable {t : DmTrace} {functionId : Int} {name : Nat} {text : List UInt8}

theorem takeWhile_of_strchr {paren : Nat} (h : strchr text 40 = some paren) :
    text.takeWhile (· ≠ 40) = text.take paren := by
  obtain ⟨hat, hfirst⟩ := strchr_some h
  have hall : ∀ c ∈ text.take paren, decide (c ≠ 40) = true := fun c hc =>
    decide_eq_true fun heq => hfirst (heq ▸ hc)
  conv_lhs => rw [(split_at hat).1]
  rw [List.takeWhile_append_of_pos hall, List.takeWhile_cons_of_neg (by simp), List.append_nil]

/-- The dot that ends the class is found exactly in a name that splits. -/
theorem splits_iff_strrchr {paren : Nat} (h : strchr text 40 = some paren) :
    Splits text ↔ ∃ dot, strrchr (text.take paren) 46 = some (dot + 1) := by
  have hparen : 40 ∈ text := List.mem_of_getElem? (strchr_some h).1
  rw [Splits, takeWhile_of_strchr h]
  constructor
  · rintro ⟨-, hdot⟩
    cases hlast : strrchr (text.take paren) 46 with
    | none => exact absurd (List.mem_of_mem_drop hdot) (strrchr_none hlast)
    | some dot =>
        cases dot with
        | zero => exact absurd hdot (strrchr_some hlast).2
        | succ dot => exact ⟨dot, rfl⟩
  · rintro ⟨dot, hlast⟩
    obtain ⟨hclass, hlt⟩ := split_at (strrchr_some hlast).1
    refine ⟨hparen, ?_⟩
    rw [hclass, List.drop_append_of_le_length (by rw [List.length_take]; omega)]
    exact List.mem_append_right _ List.mem_cons_self

/-- The parts that are found in a name that splits. -/
theorem partsOf_strchr {paren dot : Nat} (h : strchr text 40 = some paren)
    (hlast : strrchr (text.take paren) 46 = some dot) :
    PartsOf text ((text.take paren).take dot) ((text.take paren).drop (dot + 1))
      (text.drop paren) := by
  obtain ⟨hat, hfirst⟩ := strchr_some h
  obtain ⟨hdot, hmethod⟩ := strrchr_some hlast
  have hclass := (split_at hdot).1
  refine ⟨?_, hmethod, ?_, ?_⟩
  · grind [List.take_append_drop]
  · rwa [← hclass]
  · rw [List.head?_drop, hat]

/-! ## What a call leaves -/

@[simp] theorem store_buffer (t : DmTrace) (name : Nat) : t.store name (t.buffer name) = t := by
  unfold store buffer
  by_cases h : name < t.strings.length
  · rw [List.getD_eq_getElem _ _ h, List.set_getElem_self]
  · rw [List.set_eq_of_length_le (Nat.le_of_not_lt h)]

/-- A name without parts is recorded itself, and the string is restored. -/
theorem parseAndAddFunction_of_not_splits (h : ¬Splits (t.text name)) :
    t.parseAndAddFunction functionId name = t.addFunction functionId name := by
  unfold parseAndAddFunction
  cases hparen : strchr (t.text name) 40 with
  | none => rfl
  | some paren =>
      have hcut : ofBuffer ((t.buffer name).set paren 0) = (t.text name).take paren :=
        ofBuffer_set_zero _ _
      have hrestored : ((t.buffer name).set paren 0).set paren 40 = t.buffer name := by
        rw [List.set_set]
        exact set_ofBuffer (strchr_some hparen).1
      rw [splits_iff_strrchr hparen, not_exists] at h
      dsimp only
      rw [hcut, hrestored, store_buffer]
      cases hlast : strrchr ((t.text name).take paren) 46 with
      | none => rfl
      | some dot =>
          cases dot with
          | zero => rfl
          | succ dot => exact absurd hlast (h dot)

/-- A name with parts is cut behind its class. -/
theorem parseAndAddFunction_of_splits (functionId : Int) (h : Splits (t.text name)) :
    ∃ clazz method sig cut, PartsOf (t.text name) clazz method sig ∧ ofBuffer cut = clazz ∧
      t.parseAndAddFunction functionId name =
        (t.store name cut).addFunctionParts functionId clazz method sig := by
  cases hparen : strchr (t.text name) 40 with
  | none => exact absurd h.1 (strchr_none hparen)
  | some paren =>
      obtain ⟨dot, hlast⟩ := (splits_iff_strrchr hparen).mp h
      have hlt := (split_at (strchr_some hparen).1).2
      have hdot := (split_at (strrchr_some hlast).1).2
      have hsig : ofBuffer ((t.buffer name).drop paren) = (t.text name).drop paren :=
        ofBuffer_drop (Nat.le_of_lt hlt)
      have hcut : ofBuffer ((t.buffer name).set paren 0) = (t.text name).take paren :=
        ofBuffer_set_zero _ _
      have hmethod : ofBuffer (((t.buffer name).set paren 0).drop (dot + 1 + 1)) =
          ((t.text name).take paren).drop (dot + 1 + 1) := by
        rw [ofBuffer_drop (by rw [hcut]; exact hdot), hcut]
      have hclass : ofBuffer (((t.buffer name).set paren 0).set (dot + 1) 0) =
          ((t.text name).take paren).take (dot + 1) := by
        rw [ofBuffer_set_zero, hcut]
      grind [parseAndAddFunction, partsOf_strchr]

@[simp] theorem text_addFunction (t : DmTrace) (functionId : Int) (name new : Nat) :
    (t.addFunction functionId name).text new = t.text new := rfl

theorem text_store (t : DmTrace) (b : List UInt8) (hname : name < t.strings.length) :
    (t.store name b).text name = ofBuffer b := by
  rw [text, buffer, store, List.getD_eq_getElem _ _ (by rwa [List.length_set]),
    List.getElem_set_self]

/-- The new string, and those before it. -/
theorem text_addFunctionParts (t : DmTrace) (functionId : Int) (clazz method sig : List UInt8) :
    (t.addFunctionParts functionId clazz method sig).text t.strings.length =
        ofBuffer (clazz ++ 9 :: (method ++ 9 :: sig)) ∧
      ∀ name < t.strings.length,
        (t.addFunctionParts functionId clazz method sig).text name = t.text name := by
  unfold addFunctionParts text buffer addFunction
  dsimp only
  grind

/-- The characters of the parts are those of the name. -/
theorem PartsOf.ofBuffer_eq {b clazz method sig : List UInt8}
    (h : PartsOf (ofBuffer b) clazz method sig) :
    ofBuffer (clazz ++ 9 :: (method ++ 9 :: sig)) = clazz ++ 9 :: (method ++ 9 :: sig) := by
  refine ofBuffer_eq_self fun hmem => zero_notMem_ofBuffer b ?_
  rw [h.joined]
  grind

theorem lt_of_splits (h : Splits (t.text name)) : name < t.strings.length := by
  by_contra hle
  have hnone : t.text name = [] := by
    rw [text, buffer, List.getD_eq_default _ _ (Nat.le_of_not_lt hle)]
    rfl
  rw [hnone] at h
  exact List.not_mem_nil h.1

theorem parseAndAddFunction_recorded (t : DmTrace) (functionId : Int) (name : Nat) :
    ∃ new, (t.parseAndAddFunction functionId name).functions =
      t.functions ++ [⟨functionId, new⟩] ∧
    if Splits (t.text name) then ∃ clazz method sig, PartsOf (t.text name) clazz method sig ∧
      (t.parseAndAddFunction functionId name).text new = clazz ++ 9 :: (method ++ 9 :: sig)
    else (t.parseAndAddFunction functionId name).text new = t.text name := by
  by_cases h : Splits (t.text name)
  · obtain ⟨clazz, method, sig, cut, hparts, -, hrun⟩ :=
      parseAndAddFunction_of_splits functionId h
    refine ⟨(t.store name cut).strings.length, by rw [hrun]; rfl, ?_⟩
    grind [text_addFunctionParts, hparts.ofBuffer_eq]
  · refine ⟨name, ?_⟩
    rw [parseAndAddFunction_of_not_splits h, if_neg h]
    exact ⟨rfl, rfl⟩

/-- The string of the caller ends where the class does. -/
theorem parseAndAddFunction_cuts (functionId : Int) (h : Splits (t.text name)) :
    ∃ clazz method sig, PartsOf (t.text name) clazz method sig ∧
      (t.parseAndAddFunction functionId name).text name = clazz := by
  obtain ⟨clazz, method, sig, cut, hparts, hcut, hrun⟩ :=
    parseAndAddFunction_of_splits functionId h
  have hname := lt_of_splits h
  have hlength : (t.store name cut).strings.length = t.strings.length := List.length_set
  grind [text_addFunctionParts, text_store]

/-- What the caller of `parseAndAddFunction` finds: its string as before, and one more record. -/
structure Parses (t : DmTrace) (functionId : Int) (name : Nat) : Prop where
  restored : (t.parseAndAddFunction functionId name).text name = t.text name
  recorded : ∃ new, (t.parseAndAddFunction functionId name).functions =
      t.functions ++ [⟨functionId, new⟩] ∧
    if Splits (t.text name) then ∃ clazz method sig, PartsOf (t.text name) clazz method sig ∧
      (t.parseAndAddFunction functionId name).text new = clazz ++ 9 :: (method ++ 9 :: sig)
    else (t.parseAndAddFunction functionId name).text new = t.text name

/-- The record is right for every name, and the string of the caller is as before exactly if the
name has no parts. -/
theorem parses_iff (t : DmTrace) (functionId : Int) (name : Nat) :
    Parses t functionId name ↔ ¬Splits (t.text name) := by
  constructor
  · intro h hsplits
    obtain ⟨clazz, method, sig, hparts, hcut⟩ :=
      parseAndAddFunction_cuts functionId hsplits
    have hlength := congrArg List.length (hcut.symm.trans (h.restored.trans hparts.joined))
    rw [List.length_append, List.length_cons] at hlength
    omega
  · intro h
    refine ⟨?_, parseAndAddFunction_recorded t functionId name⟩
    rw [parseAndAddFunction_of_not_splits h, text_addFunction]

/-- A method of a class is a class when it is looked up again. -/
theorem linkedList_cut : ¬∀ t functionId name, Parses t functionId name := by
  intro h
  have hrestored := (h ⟨[], [literal "java.util.LinkedList.size()I"]⟩ 4 0).restored
  have hcut : (DmTrace.parseAndAddFunction ⟨[], [literal "java.util.LinkedList.size()I"]⟩ 4 0).text
      0 = literal "java.util.LinkedList" := by decide +kernel
  rw [hcut] at hrestored
  exact absurd hrestored (by decide +kernel)

end DmTrace

end AndroidRenderer.Qtools
