import AndroidRenderer.Qemud.Change

/-!
# Channel numbers

The counter is masked to eight bits, so that the search for a free channel always ends
while fewer than 256 clients are connected, but comes to the control channel 0 once in 256
numbers. A client has a channel of its own in 1..255 as long as the search finds one before
it gets there, and no malformed answer registers a client that has none.
-/

namespace AndroidRenderer.Qemud

/-! ## The search -/

theorem findChannel_none {channels : List Int} {tries lastChannel : Nat}
    (h : findChannel channels tries lastChannel = none) {k : Nat} (hpos : 1 ≤ k)
    (hle : k ≤ tries) : (((lastChannel + k) % 256 : Nat) : Int) ∈ channels := by
  induction tries generalizing lastChannel k with
  | zero => omega
  | succ tries ih =>
      rw [findChannel] at h
      split at h
      · rename_i hused
        by_cases hone : k = 1
        · subst hone
          rwa [and_mask, show (lastChannel + 1) % 2 ^ 32 % 256 = (lastChannel + 1) % 256 by omega]
            at hused
        · have hrest := ih h (k := k - 1) (by omega) (by omega)
          rwa [show ((lastChannel + 1) % 2 ^ 32 + (k - 1)) % 256 = (lastChannel + k) % 256 by
            omega] at hrest
      · cases h

/-- 256 tries see every number, so a number that no client has is found. -/
theorem findChannel_terminates {channels : List Int} (h : channels.length < 256)
    (lastChannel : Nat) : findChannel channels 256 lastChannel ≠ none := by
  intro hnone
  have hall : ((List.range 256).map fun n : Nat => (n : Int)) ⊆ channels := by
    intro i hi
    obtain ⟨n, hn, rfl⟩ := List.mem_map.mp hi
    have hlt := List.mem_range.mp hn
    have hmem := findChannel_none hnone (k := (n + 255 - lastChannel % 256) % 256 + 1) (by omega)
      (by omega)
    rwa [show (lastChannel + ((n + 255 - lastChannel % 256) % 256 + 1)) % 256 = n by omega] at hmem
  have hnodup : ((List.range 256).map fun n : Nat => (n : Int)).Nodup :=
    List.Nodup.map (fun _ _ h => Int.natCast_inj.mp h) List.nodup_range
  have hle := (hnodup.subperm hall).length_le
  grind

/-! ## The clients -/

/-- Every client that satisfies `P` has a channel in 1..255 that no other client has. -/
def Distinct (P : Client → Prop) (clients : Registry Client) : Prop :=
  ∀ c cl, clients.get? c = some cl → P cl →
    1 ≤ cl.channel ∧ cl.channel ≤ 255 ∧
      ∀ c' cl', clients.get? c' = some cl' → c' ≠ c → cl'.channel ≠ cl.channel

namespace Distinct

variable {P : Client → Prop} {clients : Registry Client}

theorem empty : Distinct P .empty := fun _ _ hget => by cases hget

theorem remove (h : Distinct P clients) (c : ClientId) : Distinct P (clients.remove c) := by
  intro i cl hget hP
  rw [Registry.get?_remove] at hget
  split at hget
  · cases hget
  · obtain ⟨hpos, hle, hother⟩ := h i cl hget hP
    grind

/-- A client without a channel can be added. -/
theorem insert (h : Distinct P clients) {f : Option HandlerId} (hnew : ¬P ⟨-1, false, f⟩) :
    Distinct P (clients.insert ⟨-1, false, f⟩) := by
  intro i cl hget hP
  rw [Registry.get?_insert] at hget
  split at hget
  · grind
  · obtain ⟨hpos, hle, hother⟩ := h i cl hget hP
    grind

/-- A client may change to a state that is distinct from the others. -/
theorem set (h : Distinct P clients) {c : ClientId} {cl : Client}
    (hrange : P cl → 1 ≤ cl.channel ∧ cl.channel ≤ 255)
    (hother : ∀ c' cl', clients.get? c' = some cl' → c' ≠ c →
      P cl' ∨ P cl → cl'.channel ≠ cl.channel) :
    Distinct P (clients.set c cl) := by
  intro i cl₁ hget hP
  rw [Registry.get?_set] at hget
  split at hget
  · rename_i hi
    obtain ⟨old, hold, rfl⟩ := Option.map_eq_some_iff.mp hget
    grind
  · rename_i hi
    obtain ⟨hpos, hle, hunique⟩ := h i cl₁ hget hP
    refine ⟨hpos, hle, fun j cl' hget' hne => ?_⟩
    rw [Registry.get?_set] at hget'
    split at hget'
    · obtain ⟨old, hold, rfl⟩ := Option.map_eq_some_iff.mp hget'
      exact (hother i cl₁ hget hi (.inl hP)).symm
    · exact hunique j cl' hget' hne

theorem set_unset (h : Distinct P clients) {c : ClientId} {cl : Client} (hchannel : cl.channel = -1)
    (hnew : ¬P cl) : Distinct P (clients.set c cl) :=
  h.set (fun hP => absurd hP hnew) fun c' cl' hget' _ hP => by
    rcases hP with hP | hP
    · have := (h c' cl' hget' hP).1
      omega
    · exact absurd hP hnew

end Distinct

/-- The client has asked for a service and was not refused; -1 is the channel of one that
has not. -/
def Client.requested (cl : Client) : Prop := cl.registered = true ∨ cl.channel ≠ -1

theorem Client.not_requested (f : Option HandlerId) : ¬(⟨-1, false, f⟩ : Client).requested := by
  simp [requested]

/-- Every client with a pending or accepted registration has a channel in 1..255 that no
other client has. -/
abbrev Numbered (clients : Registry Client) : Prop := Distinct Client.requested clients

abbrev Separate (clients : Registry Client) : Prop := Distinct (fun cl => 0 < cl.channel) clients

namespace Mux

/-- The act is no exception to the numbering. A request finds a free number above the low
byte of the counter, or its service name is too long to be sent; an answer whose digits are
malformed, which read as -1, does not meet a client without a channel. -/
def KeepsNumbers (x : Mux) : Act → Prop
  | .receive _ c bytes =>
      ∀ cl, x.clients.get? c = some cl → cl.registered = false → cl.channel ≤ 0 →
        NameFits bytes →
        ∃ free : Nat, x.lastChannel % 256 < free ∧ free ≤ 255 ∧ Unused x.clients free
  | .post channel payload =>
      channel = CHANNEL_CONTROL → Control.parse payload = .okConnect (-1) →
        Unused x.clients (-1)
  | _ => True

theorem Change.numbered {x : Mux} {a : Act} {clients : Registry Client} {events : List Event}
    (hchange : Change x a clients events) (h : Numbered x.clients) (hkeeps : x.KeepsNumbers a) :
    Numbered clients := by
  cases hchange with
  | connect f => exact h.insert (Client.not_requested _)
  | early | tooLong | dropped | closed | left => exact h.remove _
  | request f bytes channel hget hreg hchannel hfits hlt hunused hpos =>
      obtain ⟨free, hlow, hle, hfree⟩ := hkeeps _ hget hreg hchannel hfits
      have := hpos free hlow hle hfree
      exact h.set (fun _ => ⟨by simp only; omega, by simp only; omega⟩)
        fun c' cl' hget' _ _ => hunused c' cl' hget'
  | @accepted c cl payload hparse hget =>
      have hasked : cl.requested := Or.inr fun heq => hkeeps rfl (by rw [hparse, heq]) c cl hget heq
      obtain ⟨hpos, hle, hother⟩ := h c cl hget hasked
      exact h.set (fun _ => ⟨hpos, hle⟩) fun c' cl' hget' hne _ => hother c' cl' hget' hne
  | refused => exact h.set_unset rfl (Client.not_requested _)
  | _ => exact h

theorem Change.separate {x : Mux} {a : Act} {clients : Registry Client} {events : List Event}
    (hchange : Change x a clients events) (h : Separate x.clients) : Separate clients := by
  cases hchange with
  | connect f => exact h.insert (by simp)
  | early | tooLong | dropped | closed | left => exact h.remove _
  | request f bytes channel hget hreg hchannel hfits hlt hunused hpos =>
      exact h.set (fun hpos => ⟨hpos, by simp only; omega⟩)
        fun c' cl' hget' _ _ => hunused c' cl' hget'
  | @accepted c cl payload hparse hget =>
      refine h.set (fun hpos => ⟨hpos, (h c cl hget hpos).2.1⟩) fun c' cl' hget' hne hpos => ?_
      rcases hpos with hpos | hpos
      · exact ((h c' cl' hget' hpos).2.2 c cl hget (Ne.symm hne)).symm
      · exact (h c cl hget hpos).2.2 c' cl' hget' hne
  | refused => exact h.set_unset rfl (by simp)
  | _ => exact h

end Mux

namespace Multiplexer

theorem fdhandlerEnqueue_faults (m : Multiplexer) (f : HandlerId) (p : Packet) :
    Run.Faults (m.fdhandlerEnqueue f p) (· = .useAfterFree) := by
  refine Run.Faults.bind (fun e he => ?_) fun _ _ => .pure _
  unfold handler at he
  split at he <;> cases he
  rfl

theorem serialSend_faults (m : Multiplexer) (p : Packet) :
    Run.Faults (m.serialSend p) (· = .useAfterFree) :=
  .bind (fdhandlerEnqueue_faults _ _ _) fun _ _ => fdhandlerEnqueue_faults _ _ _

/-- The search ends while there are fewer than 256 clients. -/
theorem multiplexerOpenChannel_terminates {m : Multiplexer} (service : Packet)
    (h : m.clients.values.length < 256) : m.multiplexerOpenChannel service ≠ .error .hang := by
  intro hhang
  simp only [multiplexerOpenChannel] at hhang
  have hlength : (m.clients.values.map Client.channel).length < 256 := by rwa [List.length_map]
  have hfound := findChannel_terminates hlength m.lastChannel
  cases hfind : findChannel (m.clients.values.map Client.channel) 256 m.lastChannel with
  | none => exact hfound hfind
  | some found =>
      rw [hfind] at hhang
      dsimp only at hhang
      split at hhang
      · have := Run.Faults.bind (serialSend_faults _ _) (fun _ _ => .pure _) _ hhang
        cases this
      · cases hhang

/-- The next step is no exception to the numbering. -/
def KeepsNumbers (m : Multiplexer) (label : Label) : Prop := m.mux.KeepsNumbers (m.act label)

/-- In every run whose steps keep the numbering, each client with a pending or accepted
registration has a channel in 1..255 of its own; and the search for a channel ends for
every set of fewer than 255 clients. -/
theorem channels_numbered (heap : Nat → Buffer UInt8 MAX_PAYLOAD) (fd controlFd : Nat) :
    (∀ m, Run.Reach step KeepsNumbers (multiplexerInit heap fd controlFd) m →
      Numbered m.clients) ∧
    ∀ (m : Multiplexer) (service : Packet), m.clients.values.length < 255 →
      m.multiplexerOpenChannel service ≠ .error .hang := by
  refine ⟨fun m hreach => ?_, fun m service h =>
    multiplexerOpenChannel_terminates service (Nat.lt_succ_of_lt h)⟩
  refine hreach.invariant (I := fun m => Numbered m.clients) ?_ fun m label m' h hkeeps hstep => ?_
  · exact Distinct.empty
  · have hmux := step_mux hstep
    obtain ⟨events, -, hchange⟩ := m.mux.next_changes (m.act label)
    rw [← hmux] at hchange
    exact hchange.numbered h hkeeps

/-- A daemon with serial port 3 and control socket 4. -/
def start : Multiplexer := multiplexerInit (fun _ => zeroData) 3 4

/-- A client connects on descriptor 5. -/
def acceptClient : List Label :=
  [.wait [(4, .EPOLLIN)], .tick, .accept (some 5), .tick, .tick, .tick]

/-- The client on descriptor 5 asks for the service `a`. -/
def requestService : List Label :=
  [.wait [(5, .EPOLLIN)], .tick, .tick, .read (some ⟨ascii "a", by decide⟩), .tick, .tick]

theorem answer_length (text : List UInt8) (h : text.length = 11) (channel : Nat) :
    (ascii "00000d" ++ text ++ int2hex channel 2).length ≤ MAX_PAYLOAD := by
  rw [List.length_append, List.length_append, int2hex_length, h]
  decide

def acceptService (channel : Nat) : List Label :=
  [.wait [(3, .EPOLLIN)],
    .read (some ⟨ascii "00000d" ++ ascii "ok:connect:" ++ int2hex channel 2,
      answer_length _ (by decide) channel⟩)] ++ List.replicate 7 .tick

def refuseService (channel : Nat) : List Label :=
  [.wait [(3, .EPOLLIN)],
    .read (some ⟨ascii "00000d" ++ ascii "ko:connect:" ++ int2hex channel 2,
      answer_length _ (by decide) channel⟩)] ++ List.replicate 7 .tick

/-- A test for `KeepsNumbers`. -/
def keepsNumbersTest (m : Multiplexer) (label : Label) : Bool :=
  match m.act label with
  | .receive _ _ _ => decide (m.lastChannel % 256 < 255) &&
      m.clients.values.all fun cl => cl.channel != ((m.lastChannel % 256 + 1 : Nat) : Int)
  | .post _ payload => decide (Control.parse payload ≠ .okConnect (-1))
  | _ => true

theorem keepsNumbersTest_sound (m : Multiplexer) (label : Label)
    (h : keepsNumbersTest m label = true) : KeepsNumbers m label := by
  unfold KeepsNumbers
  unfold keepsNumbersTest at h
  cases hact : m.act label with
  | receive f c bytes =>
      rw [hact] at h
      simp only [Bool.and_eq_true, decide_eq_true_eq, List.all_eq_true] at h
      refine fun cl hget _ _ _ => ⟨m.lastChannel % 256 + 1, Nat.lt_succ_self _, h.1,
        fun c' cl' hget' => ?_⟩
      have := h.2 cl' (Registry.mem_values_iff.mpr ⟨c', hget'⟩)
      simpa using this
  | post channel payload =>
      rw [hact] at h
      exact fun _ hparse => absurd hparse (of_decide_eq_true h)
  | _ => trivial

/-- A client is registered on channel 1. -/
theorem channels_numbered_registered :
    (∃ m : Multiplexer, m.clients.get? 0 = some ⟨1, true, some 2⟩ ∧ Numbered m.clients) ∧
      start.multiplexerOpenChannel shortPacket ≠ .error .hang := by
  have hrun : Run.check step keepsNumbersTest
      (fun m => m.clients.get? 0 = some ⟨1, true, some 2⟩) start
      (acceptClient ++ requestService ++ acceptService 1) = true := by
    decide +kernel
  obtain ⟨m, hreach, htest⟩ := Run.exists_reach_of_check keepsNumbersTest_sound hrun
  obtain ⟨hnumbered, hends⟩ := channels_numbered (fun _ => zeroData) 3 4
  exact ⟨⟨m, of_decide_eq_true htest, hnumbered m hreach⟩, hends start shortPacket (by decide)⟩

/-- A client whose registration is refused 255 times gets the control channel. -/
theorem wrappedCounter_not_numbered :
    ∃ m, Run.Reach step (fun _ _ => True) (multiplexerInit (fun _ => zeroData) 3 4) m ∧
      ¬Numbered m.clients := by
  have hrun : Run.check step (fun _ _ => true)
      (fun m => m.clients.get? 0 = some ⟨0, false, some 2⟩) start
      (acceptClient ++ ((List.range' 1 255).flatMap fun k => requestService ++ refuseService k) ++
        requestService) = true := by
    decide +kernel
  obtain ⟨m, hreach, htest⟩ := Run.exists_reach_of_check (fun _ _ _ => trivial) hrun
  refine ⟨m, hreach, fun hnumbered => ?_⟩
  have := (hnumbered 0 _ (of_decide_eq_true htest) (.inr (by decide))).1
  exact absurd this (by decide)

end Multiplexer

end AndroidRenderer.Qemud
