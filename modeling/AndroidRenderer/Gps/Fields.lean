import AndroidRenderer.Gps.NmeaTokenizer

/-!
# Tokens and fields

The fields of a sentence are what is between the commas of its body. The tokenizer stores the
first sixteen fields that are not empty, so an empty field moves every field behind it.
-/

namespace AndroidRenderer.Gps

def fields (body : List UInt8) : List Token := body.splitOn comma

/-- The field at an index, no bytes behind the last field. -/
def field (sentence : List UInt8) (k : Nat) : Token := (fields (body sentence)).getD k []

variable {t : NmeaTokenizer} {text : List UInt8}

/-! ## The tokens -/

theorem NmeaTokenizer.push_tokens (tok : Token) :
    (t.push tok).tokens = (t.tokens ++ [tok]).take maxNmeaTokens := by
  unfold NmeaTokenizer.push
  split
  · grind [List.take_of_length_le]
  · rename_i hfull
    have hlength : t.tokens.length = maxNmeaTokens :=
      Nat.le_antisymm t.count_le (Nat.le_of_not_lt hfull)
    grind

theorem NmeaTokenizer.take_tokens : t.tokens.take maxNmeaTokens = t.tokens :=
  List.take_of_length_le t.count_le

theorem take_take_append (n : Nat) (tokens more : List Token) :
    (tokens.take n ++ more).take n = (tokens ++ more).take n := by
  have hleft : n - min n tokens.length = n - tokens.length := by omega
  rw [List.take_append, List.take_append, List.take_take, Nat.min_self, List.length_take, hleft]

theorem NmeaTokenizer.scan_nil (n : Nat) : NmeaTokenizer.scan n [] t = t := by
  cases n <;> rfl

theorem NmeaTokenizer.scan_succ (n : Nat) (htext : text ≠ []) :
    NmeaTokenizer.scan (n + 1) text t =
      NmeaTokenizer.scan n ((text.dropWhile (· ≠ comma)).drop 1)
        (if text.takeWhile (· ≠ comma) = [] then t else t.push (text.takeWhile (· ≠ comma))) :=
  if_neg htext

theorem NmeaTokenizer.scan_tokens (n : Nat) (hn : text.length ≤ n) :
    (NmeaTokenizer.scan n text t).tokens =
      (t.tokens ++ (fields text).filter (· ≠ [])).take maxNmeaTokens := by
  induction text using Separators.piece_induction comma generalizing n t with
  | last text hcomma =>
      have hfields : fields text = [text] := List.splitOn_eq_singleton hcomma
      rw [hfields]
      cases n with
      | zero => grind [scan, take_tokens]
      | succ n =>
          by_cases htext : text = []
          · simp [htext, scan, take_tokens]
          · rw [scan_succ n htext, Separators.takeWhile_of_notMem hcomma,
              Separators.dropWhile_of_notMem hcomma, List.drop_nil, scan_nil, if_neg htext,
              push_tokens, List.filter_cons_of_pos (by simpa using htext), List.filter_nil]
  | more tok rest hcomma ih =>
      have hfields : fields (tok ++ comma :: rest) = tok :: fields rest :=
        List.splitOn_append_cons_self_of_not_mem hcomma rest
      have hlength : rest.length + 1 ≤ n := by grind
      obtain ⟨n, rfl⟩ : ∃ m, n = m + 1 := ⟨n - 1, by omega⟩
      rw [hfields, scan_succ n (by simp), Separators.takeWhile_append_cons hcomma,
        Separators.dropWhile_append_cons hcomma, List.drop_one, List.tail_cons,
        ih n (by omega)]
      by_cases htok : tok = []
      · grind
      · rw [if_neg htok, push_tokens, take_take_append,
          List.filter_cons_of_pos (by simpa using htok), List.append_assoc, List.singleton_append]

/-- The tokens are the first sixteen fields that are not empty. -/
theorem nmeaTokenizerInit_tokens (sentence : List UInt8) :
    (nmeaTokenizerInit sentence).tokens =
      ((fields (body sentence)).filter (· ≠ [])).take maxNmeaTokens :=
  NmeaTokenizer.scan_tokens _ (Nat.le_refl _)

theorem nmeaTokenizerGet_eq (sentence : List UInt8) {k : Nat} (hk : k < maxNmeaTokens) :
    nmeaTokenizerGet (nmeaTokenizerInit sentence) k =
      ((fields (body sentence)).filter (· ≠ [])).getD k [] := by
  rw [nmeaTokenizerGet, nmeaTokenizerInit_tokens, List.getD_eq_getElem?_getD,
    List.getD_eq_getElem?_getD, List.getElem?_take_of_lt hk]

/-! ## Positions -/

theorem getD_of_all_empty {fs : List Token} (h : fs.filter (· ≠ []) = []) (k : Nat) :
    fs.getD k [] = [] := by
  rw [List.getD_eq_getElem?_getD]
  cases hget : fs[k]? with
  | none => rfl
  | some f =>
      have hempty : ∀ f ∈ fs, f = [] := by simpa [List.filter_eq_nil_iff] using h
      rw [hempty f (List.mem_of_getElem? hget)]
      rfl

/-- Leaving the empty fields out moves none of the first `n`, if and only if only empty fields
are behind an empty one of them. -/
theorem getD_filter_iff (fs : List Token) (n : Nat) :
    (∀ k < n, (fs.filter (· ≠ [])).getD k [] = fs.getD k []) ↔
      ∀ i < n, ∀ j, i < j → fs[i]? = some [] → fs.getD j [] = [] := by
  induction fs generalizing n with
  | nil => simp
  | cons f fs ih =>
      cases n with
      | zero => simp
      | succ n =>
          by_cases hf : f = []
          · subst hf
            rw [List.filter_cons_of_neg (by simp)]
            constructor
            · intro h i hi j hij hget
              have hzero := h 0 (Nat.succ_pos n)
              have hnone : fs.filter (· ≠ []) = [] := by
                cases hfilter : fs.filter (· ≠ []) with
                | nil => rfl
                | cons g gs => grind
              grind [getD_of_all_empty]
            · intro h k hk
              have hempty : ∀ f ∈ fs, f = [] := by
                intro f hmem
                obtain ⟨j, hj⟩ := List.mem_iff_getElem?.mp hmem
                have := h 0 (Nat.succ_pos n) (j + 1) (Nat.succ_pos j) rfl
                simpa [List.getD_eq_getElem?_getD, hj] using this
              have hnone : fs.filter (· ≠ []) = [] := by
                simpa [List.filter_eq_nil_iff] using hempty
              grind
          · rw [List.filter_cons_of_pos (by simpa using hf)]
            have htail := ih n
            constructor
            · intro h i hi j hij hget
              obtain ⟨j, rfl⟩ : ∃ j', j = j' + 1 := ⟨j - 1, by omega⟩
              cases i with
              | zero => exact absurd (Option.some.inj hget) hf
              | succ i =>
                  refine htail.mp (fun k hk => ?_) i (by omega) j (by omega) hget
                  exact h (k + 1) (by omega)
            · intro h k hk
              cases k with
              | zero => rfl
              | succ k =>
                  refine htail.mpr (fun i hi j hij hget => ?_) k (by omega)
                  exact h (i + 1) (by omega) (j + 1) (by omega) hget

/-- The tokenizer gives the field at each index if and only if only empty fields are behind an
empty one of the first sixteen. -/
theorem nmeaTokenizerGet_iff (sentence : List UInt8) :
    (∀ k < maxNmeaTokens, nmeaTokenizerGet (nmeaTokenizerInit sentence) k = field sentence k) ↔
      ∀ i < maxNmeaTokens, ∀ j, i < j → (fields (body sentence))[i]? = some [] →
        field sentence j = [] := by
  refine Iff.trans ?_ (getD_filter_iff (fields (body sentence)) maxNmeaTokens)
  constructor <;> intro h k hk
  · rw [← nmeaTokenizerGet_eq sentence hk]
    exact h k hk
  · rw [nmeaTokenizerGet_eq sentence hk]
    exact h k hk

/-- `$GPRMC,120000,V,,,,,,,010100*00` without a fix: the date is where the latitude should be. -/
theorem noFix_moves :
    nmeaTokenizerGet (nmeaTokenizerInit
      (CString.literal "$GPRMC,120000,V,,,,,,,010100*00\r\n")) 3 = CString.literal "010100" ∧
    field (CString.literal "$GPRMC,120000,V,,,,,,,010100*00\r\n") 3 = [] ∧
    field (CString.literal "$GPRMC,120000,V,,,,,,,010100*00\r\n") 9 = CString.literal "010100" := by
  decide

end AndroidRenderer.Gps
