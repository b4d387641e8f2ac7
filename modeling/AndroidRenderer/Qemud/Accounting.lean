import AndroidRenderer.Qemud.Channels

/-!
# Accounting of channels with the emulator

A channel is open for the emulator from the `connect` that qemud sends for it until qemud
sends `disconnect` or receives `ko:connect` or `disconnect`. `account` computes the open
channels from the frames of the control channel alone and fails if a channel is opened or
closed twice. The open channels are those of the live clients, except where a client that
waits for an answer is dropped for sending data, which tells the emulator nothing, and
where the control channel itself is handed out.
-/

namespace AndroidRenderer.Qemud

/-- The messages qemud sends on the control channel. -/
inductive Request
  | connect (channel : Int)
  | disconnect (channel : Int)
  | other
  deriving DecidableEq, Repr

/-- How the emulator reads them; the channel of a `connect` is behind the service name. -/
def Request.parse (payload : List UInt8) : Request :=
  if payload.take 8 = ascii "connect:" then .connect (hex2int (payload.drop (payload.length - 2)))
  else if payload.take 11 = ascii "disconnect:" then .disconnect (hex2int (payload.drop 11))
  else .other

theorem Request.parse_connectText (service : List UInt8) {channel : Nat} (h : channel < 256) :
    Request.parse (connectText service channel) = .connect channel := by
  have htext : connectText service channel =
      ascii "connect:" ++ (service.takeWhile (· != 0) ++ ascii ":" ++ int2hex channel 2) := by
    rw [connectText, format02x_eq h]
    simp only [List.append_assoc]
  have hfront : (ascii "connect:").length = 8 := by decide
  have hlast : connectText service channel =
      (ascii "connect:" ++ service.takeWhile (· != 0) ++ ascii ":") ++ int2hex channel 2 := by grind
  have hdrop : (connectText service channel).drop ((connectText service channel).length - 2) =
      int2hex channel 2 := by
    rw [hlast, List.length_append, int2hex_length, Nat.add_sub_cancel, List.drop_left]
  rw [Request.parse, hdrop, if_pos (by rw [htext, List.take_left' hfront]),
    hex2int_int2hex (by omega)]

theorem Request.parse_disconnectText {channel : Nat} (h : channel < 256) :
    Request.parse (disconnectText channel) = .disconnect channel := by
  have hfront : (ascii "disconnect:").length = 11 := by decide
  have htake : (disconnectText channel).take 8 ≠ ascii "connect:" := by
    have hpre : (disconnectText channel).take 8 = (ascii "disconnect:").take 8 := by
      rw [disconnectText, List.take_append_of_le_length (by rw [hfront]; decide)]
    rw [hpre]
    decide
  rw [Request.parse, if_neg htake, if_pos (by rw [disconnectText, List.take_left' hfront]),
    disconnectText, List.drop_left' hfront, format02x_eq h, hex2int_int2hex (by omega)]

/-- The open channels after an event. -/
def accountStep : Option (List Int) → Event → Option (List Int)
  | some opened, .sent channel payload =>
      if channel = CHANNEL_CONTROL then
        match Request.parse payload with
        | .connect k => if k ∈ opened then none else some (k :: opened)
        | .disconnect k => if k ∈ opened then some (opened.filter (· != k)) else none
        | .other => some opened
      else some opened
  | some opened, .posted channel payload =>
      if channel = CHANNEL_CONTROL then
        match Control.parse payload with
        | .koConnect k => some (opened.filter (· != k))
        | .disconnect k => some (opened.filter (· != k))
        | _ => some opened
      else some opened
  | opened, _ => opened

/-- The open channels, computed from what was sent and posted. -/
def account (trace : List Event) : Option (List Int) := trace.foldl accountStep (some [])

def Live (clients : Registry Client) (channel : Int) : Prop :=
  0 < channel ∧ ∃ c cl, clients.get? c = some cl ∧ cl.channel = channel

/-- The channels in the list are those of the live clients. -/
def Balanced (opened : List Int) (clients : Registry Client) : Prop :=
  ∀ channel, channel ∈ opened ↔ Live clients channel

/-! ## Channels of live clients -/

namespace Balanced

variable {opened : List Int} {clients : Registry Client}

theorem insert (h : Balanced opened clients) (f : Option HandlerId) :
    Balanced opened (clients.insert ⟨-1, false, f⟩) := by
  intro channel
  rw [h channel]
  refine and_congr_right fun hpos => ⟨?_, ?_⟩
  · rintro ⟨c, cl, hget, hchannel⟩
    refine ⟨c, cl, ?_, hchannel⟩
    rw [Registry.get?_insert, if_neg (Nat.ne_of_lt (Registry.lt_next_of_get? hget)), hget]
  · grind

/-- A client goes, and its channel is closed. -/
theorem remove (h : Balanced opened clients) (hsep : Separate clients) {c : ClientId} {cl : Client}
    (hget : clients.get? c = some cl) :
    Balanced (opened.filter (· != cl.channel)) (clients.remove c) := by
  intro channel
  rw [List.mem_filter, h channel]
  simp only [bne_iff_ne]
  constructor
  · rintro ⟨⟨hpos, i, cl', hget', rfl⟩, hne⟩
    refine ⟨hpos, i, cl', ?_, rfl⟩
    rw [Registry.get?_remove, if_neg, hget']
    grind
  · rintro ⟨hpos, i, cl', hget', rfl⟩
    rw [Registry.get?_remove] at hget'
    split at hget'
    · cases hget'
    · rename_i hne
      exact ⟨⟨hpos, i, cl', hget', rfl⟩,
        ((hsep i cl' hget' hpos).2.2 c cl hget (Ne.symm hne)).symm⟩

/-- A client moves from its channel to another. -/
theorem set (h : Balanced opened clients) (hsep : Separate clients) {c : ClientId}
    {cl cl' : Client} (hget : clients.get? c = some cl) {opened' : List Int}
    (hopened : ∀ channel, channel ∈ opened' ↔
      channel ∈ opened ∧ channel ≠ cl.channel ∨ 0 < channel ∧ channel = cl'.channel) :
    Balanced opened' (clients.set c cl') := by
  intro channel
  rw [hopened, h channel]
  constructor
  · rintro (⟨⟨hpos, i, cl₁, hget₁, rfl⟩, hne⟩ | ⟨hpos, rfl⟩)
    · refine ⟨hpos, i, cl₁, ?_, rfl⟩
      grind
    · refine ⟨hpos, c, cl', ?_, rfl⟩
      rw [Registry.get?_set, if_pos rfl, hget]
      rfl
  · rintro ⟨hpos, i, cl₁, hget₁, rfl⟩
    rw [Registry.get?_set] at hget₁
    split at hget₁
    · grind
    · rename_i hne
      exact .inl ⟨⟨hpos, i, cl₁, hget₁, rfl⟩,
        ((hsep i cl₁ hget₁ hpos).2.2 c cl hget (Ne.symm hne)).symm⟩

theorem filter (h : Balanced opened clients) {k : Int}
    (hnone : ∀ c cl, clients.get? c = some cl → cl.channel ≠ k) :
    Balanced (opened.filter (· != k)) clients := by
  intro channel
  rw [List.mem_filter, h channel]
  simp only [bne_iff_ne, and_iff_left_iff_imp]
  rintro ⟨hpos, c, cl, hget, rfl⟩
  exact hnone c cl hget

theorem filter_eq (h : Balanced opened clients) {k : Int} (hk : k ≤ 0) :
    opened.filter (· != k) = opened := by
  refine List.filter_eq_self.mpr fun channel hmem => ?_
  have := ((h channel).mp hmem).1
  simp only [bne_iff_ne]
  omega

end Balanced

/-! ## The record -/

/-- An event that is no frame of the control channel. -/
def Event.neutral : Event → Prop
  | .sent channel _ => channel ≠ CHANNEL_CONTROL
  | .posted channel _ => channel ≠ CHANNEL_CONTROL
  | _ => True

theorem foldl_accountStep_neutral {events : List Event} (h : ∀ e ∈ events, e.neutral)
    (opened : Option (List Int)) : events.foldl accountStep opened = opened := by
  induction events generalizing opened with
  | nil => rfl
  | cons e events ih =>
      rw [List.foldl_cons, ih fun e' he' => h e' (List.mem_cons_of_mem _ he')]
      have he := h e List.mem_cons_self
      cases opened with
      | none => rfl
      | some opened =>
          cases e with
          | sent channel payload => exact if_neg he
          | posted channel payload => exact if_neg he
          | _ => rfl

theorem sendEvents_neutral {serial : HandlerId} {channel : Int} {payload : List UInt8}
    (h : channel ≠ CHANNEL_CONTROL) : ∀ e ∈ Mux.sendEvents serial channel payload, e.neutral := by
  intro e he
  simp only [Mux.sendEvents, List.mem_cons, List.not_mem_nil, or_false] at he
  rcases he with rfl | rfl | rfl
  · exact h
  · trivial
  · trivial

theorem queuedTo_neutral {fdhandler : Option HandlerId} {bytes : List UInt8} :
    ∀ e ∈ Mux.queuedTo fdhandler bytes, e.neutral := by
  intro e he
  obtain ⟨f, -, rfl⟩ := List.mem_map.mp he
  trivial

/-- What an answer to a client records behind the message. -/
theorem answer_neutral {fdhandler : Option HandlerId} {bytes : List UInt8} {c : ClientId}
    {registered : Bool} :
    ∀ e ∈ Mux.queuedTo fdhandler bytes ++ [.answered c registered], e.neutral := by
  intro e he
  rcases List.mem_append.mp he with he | he
  · exact queuedTo_neutral e he
  · obtain rfl := List.mem_singleton.mp he
    trivial

/-- Of a frame only what was sent counts. -/
theorem foldl_accountStep_sendEvents (serial : HandlerId) (channel : Int) (payload : List UInt8)
    (opened : Option (List Int)) :
    (Mux.sendEvents serial channel payload).foldl accountStep opened =
      accountStep opened (.sent channel payload) := by
  rw [Mux.sendEvents, List.foldl_cons]
  exact foldl_accountStep_neutral (by simp [Event.neutral]) _

theorem account_append (trace events : List Event) :
    account (trace ++ events) = events.foldl accountStep (account trace) :=
  List.foldl_append

namespace Mux

/-- No client that waits for an answer sends data, and a request finds a free number above
the low byte of the counter, or its service name is too long to be sent. -/
def KeepsAccount (x : Mux) : Act → Prop
  | .receive _ c bytes =>
      ∀ cl, x.clients.get? c = some cl → cl.registered = false →
        cl.channel ≤ 0 ∧ (NameFits bytes →
          ∃ free : Nat, x.lastChannel % 256 < free ∧ free ≤ 255 ∧ Unused x.clients free)
  | _ => True

/-- The open channels are those of the clients, and no client has the control channel. -/
structure Accounted (x : Mux) : Prop where
  separate : Separate x.clients
  control : Unused x.clients CHANNEL_CONTROL
  balanced : ∃ opened, account x.trace = some opened ∧ Balanced opened x.clients

theorem Unused.remove {clients : Registry Client} {channel : Int} (h : Unused clients channel)
    (c : ClientId) : Unused (clients.remove c) channel := by
  intro i cl hget
  rw [Registry.get?_remove] at hget
  split at hget
  · cases hget
  · exact h i cl hget

theorem Unused.set {clients : Registry Client} {channel : Int} (h : Unused clients channel)
    {c : ClientId} {cl : Client} (hcl : cl.channel ≠ channel) :
    Unused (clients.set c cl) channel := by
  intro i cl' hget
  rw [Registry.get?_set] at hget
  split at hget
  · obtain ⟨-, -, rfl⟩ := Option.map_eq_some_iff.mp hget
    exact hcl
  · exact h i cl' hget

theorem Unused.insert {clients : Registry Client} {channel : Int} (h : Unused clients channel)
    {cl : Client} (hcl : cl.channel ≠ channel) : Unused (clients.insert cl) channel := by
  intro i cl' hget
  rw [Registry.get?_insert] at hget
  split at hget
  · grind
  · exact h i cl' hget

theorem Change.control {x : Mux} {a : Act} {clients : Registry Client} {events : List Event}
    (hchange : Change x a clients events) (h : Unused x.clients CHANNEL_CONTROL)
    (hkeeps : x.KeepsAccount a) : Unused clients CHANNEL_CONTROL := by
  cases hchange with
  | connect f => exact h.insert (by simp [CHANNEL_CONTROL])
  | early | tooLong | dropped | closed | left => exact h.remove _
  | request f bytes channel hget hreg hchannel hfits hlt hunused hpos =>
      obtain ⟨free, hlow, hle, hfree⟩ := (hkeeps _ hget hreg).2 hfits
      grind [CHANNEL_CONTROL, h.set]
  | @accepted c cl payload hparse hget =>
      refine h.set ?_
      exact h c cl hget
  | refused => exact h.set (by simp [CHANNEL_CONTROL])
  | _ => exact h

/-- An act keeps the account. -/
theorem Change.balanced {x : Mux} {a : Act} {clients : Registry Client} {events : List Event}
    (hchange : Change x a clients events) (h : x.Accounted) (hkeeps : x.KeepsAccount a) :
    ∃ opened, account (x.trace ++ events) = some opened ∧ Balanced opened clients := by
  obtain ⟨opened, haccount, hbal⟩ := h.balanced
  rw [account_append, haccount]
  cases hchange with
  | silent => exact ⟨opened, rfl, hbal⟩
  | connect f => exact ⟨opened, rfl, hbal.insert _⟩
  | read | wrote | orphan => exact ⟨opened, rfl, hbal⟩
  | forward f bytes hget hreg =>
      rw [List.foldl_cons, foldl_accountStep_neutral (sendEvents_neutral (h.control _ _ hget))]
      exact ⟨opened, rfl, hbal⟩
  | early f bytes hget hreg hpending =>
      have := (hkeeps _ hget hreg).1
      omega
  | tooLong f bytes hget hreg hnone =>
      refine ⟨opened, rfl, ?_⟩
      grind [hbal.remove, h.separate, hbal.filter_eq]
  | @request c cl f bytes channel hget hreg hnone hfits hlt hunused hpos =>
      obtain ⟨free, hlow, hle, hfree⟩ := (hkeeps _ hget hreg).2 hfits
      have hone := hpos free hlow hle hfree
      have hnew : (channel : Int) ∉ opened := by
        rw [hbal]
        rintro ⟨-, c', cl', hget', heq⟩
        exact hunused c' cl' hget' heq
      refine ⟨channel :: opened, ?_, hbal.set h.separate hget fun k => ?_⟩
      · rw [List.foldl_cons, foldl_accountStep_sendEvents]
        simp only [accountStep, if_true, Request.parse_connectText bytes hlt, if_neg hnew]
      · have hk : k ∈ opened → k ≠ cl.channel := by
          rw [hbal]
          rintro ⟨hkpos, -⟩
          omega
        grind
  | @accepted c cl payload hparse hget =>
      refine ⟨opened, ?_, hbal.set h.separate hget fun k => ?_⟩
      · rw [List.foldl_cons, foldl_accountStep_neutral answer_neutral]
        simp only [accountStep, if_true, hparse]
      · constructor
        · intro hmem
          by_cases hk : k = cl.channel
          · exact .inr ⟨((hbal k).mp hmem).1, hk⟩
          · exact .inl ⟨hmem, hk⟩
        · rintro (⟨hmem, -⟩ | ⟨hpos, rfl⟩)
          · exact hmem
          · exact (hbal _).mpr ⟨hpos, c, cl, hget, rfl⟩
  | @refused c cl payload hparse hget =>
      refine ⟨opened.filter (· != cl.channel), ?_, hbal.set h.separate hget fun k => ?_⟩
      · rw [List.foldl_cons, foldl_accountStep_neutral answer_neutral]
        simp only [accountStep, if_true, hparse]
      · grind
  | @dropped c cl payload hparse hget =>
      refine ⟨opened.filter (· != cl.channel), ?_, hbal.remove h.separate hget⟩
      simp only [List.foldl_cons, List.foldl_nil, accountStep, if_true, hparse]
  | unanswered payload hunused =>
      cases hparse : Control.parse payload with
      | koConnect k =>
          refine ⟨opened.filter (· != k), ?_, hbal.filter (hunused k (.inl hparse))⟩
          simp only [List.foldl_cons, List.foldl_nil, accountStep, if_true, hparse]
      | disconnect k =>
          refine ⟨opened.filter (· != k), ?_, hbal.filter (hunused k (.inr hparse))⟩
          simp only [List.foldl_cons, List.foldl_nil, accountStep, if_true, hparse]
      | _ =>
          refine ⟨opened, ?_, hbal⟩
          simp only [List.foldl_cons, List.foldl_nil, accountStep, if_true, hparse]
  | deliver payload hget hchannel =>
      rw [List.foldl_cons, foldl_accountStep_neutral queuedTo_neutral]
      exact ⟨opened, if_neg hchannel, hbal⟩
  | discard channel payload hchannel hunused => exact ⟨opened, if_neg hchannel, hbal⟩
  | @closed c cl hget hpos =>
      obtain ⟨k, hk⟩ := Int.eq_ofNat_of_zero_le (Int.le_of_lt hpos)
      have hlt : k < 256 := by
        have := (h.separate _ _ hget hpos).2.1
        omega
      have hmem : (k : Int) ∈ opened := (hbal _).mpr ⟨by omega, c, cl, hget, hk⟩
      refine ⟨opened.filter (· != cl.channel), ?_, hbal.remove h.separate hget⟩
      rw [foldl_accountStep_sendEvents, hk]
      simp only [accountStep, if_true, Request.parse_disconnectText hlt, if_pos hmem]
  | left hget hnone =>
      refine ⟨opened, rfl, ?_⟩
      have hremove := hbal.remove h.separate hget
      rwa [hbal.filter_eq hnone] at hremove
  | gone => exact ⟨opened, rfl, hbal⟩

theorem Accounted.next {x : Mux} (h : x.Accounted) {a : Act} (hkeeps : x.KeepsAccount a) :
    (x.next a).Accounted := by
  obtain ⟨events, htrace, hchange⟩ := x.next_changes a
  refine ⟨hchange.separate h.separate, hchange.control h.control hkeeps, ?_⟩
  rw [htrace]
  exact hchange.balanced h hkeeps

end Mux

namespace Multiplexer

/-- The next step is no exception to the accounting. -/
def KeepsAccount (m : Multiplexer) (label : Label) : Prop := m.mux.KeepsAccount (m.act label)

/-- In every run whose steps keep the account, the channels that are open for the emulator
are those of the live clients, and none was opened or closed twice. -/
theorem channels_accounted (heap : Nat → Buffer UInt8 MAX_PAYLOAD) (fd controlFd : Nat)
    (m : Multiplexer) (h : Run.Reach step KeepsAccount (multiplexerInit heap fd controlFd) m) :
    ∃ opened, account m.trace = some opened ∧ Balanced opened m.clients := by
  suffices m.mux.Accounted from this.balanced
  refine h.invariant (I := fun m => m.mux.Accounted) ?_ fun m label m' hacc hkeeps hstep => ?_
  · refine ⟨Distinct.empty, (fun _ _ hget => nomatch hget), [], rfl, fun channel => ?_⟩
    refine ⟨(fun hmem => nomatch hmem), ?_⟩
    rintro ⟨-, c, cl, hget, -⟩
    cases hget
  · rw [step_mux hstep]
    exact hacc.next hkeeps

/-- A test for `KeepsAccount`. -/
def keepsAccountTest (m : Multiplexer) (label : Label) : Bool :=
  match m.act label with
  | .receive _ c _ =>
      match m.clients.get? c with
      | some ⟨channel, false, _⟩ =>
          decide (channel ≤ 0) && decide (m.lastChannel % 256 < 255) &&
            m.clients.values.all fun cl => cl.channel != ((m.lastChannel % 256 + 1 : Nat) : Int)
      | _ => true
  | _ => true

theorem keepsAccountTest_sound (m : Multiplexer) (label : Label)
    (h : keepsAccountTest m label = true) : KeepsAccount m label := by
  unfold KeepsAccount
  unfold keepsAccountTest at h
  cases hact : m.act label with
  | receive f c bytes =>
      rintro ⟨channel, registered, fdhandler⟩ hget rfl
      rw [hact] at h
      simp only [show m.clients.get? c = _ from hget, Bool.and_eq_true, decide_eq_true_eq,
        List.all_eq_true] at h
      obtain ⟨⟨hnone, hlow⟩, hfree⟩ := h
      refine ⟨hnone, fun _ => ⟨m.lastChannel % 256 + 1, Nat.lt_succ_self _, hlow,
        fun c' cl' hget' => ?_⟩⟩
      have := hfree cl' (Registry.mem_values_iff.mpr ⟨c', hget'⟩)
      simpa using this
  | _ => trivial

def sendData (text : List UInt8) (h : text.length ≤ MAX_PAYLOAD) : List Label :=
  [.wait [(5, .EPOLLIN)], .tick, .tick, .read (some ⟨text, h⟩), .tick, .tick]

/-- A client is registered on channel 1, which is open. -/
theorem channels_accounted_registered :
    ∃ m : Multiplexer, m.clients.get? 0 = some ⟨1, true, some 2⟩ ∧
      ∃ opened, account m.trace = some opened ∧ Balanced opened m.clients := by
  have hrun : Run.check step keepsAccountTest
      (fun m => m.clients.get? 0 = some ⟨1, true, some 2⟩) start
      (acceptClient ++ requestService ++ acceptService 1) = true := by
    decide +kernel
  obtain ⟨m, hreach, htest⟩ := Run.exists_reach_of_check keepsAccountTest_sound hrun
  exact ⟨m, of_decide_eq_true htest, channels_accounted (fun _ => zeroData) 3 4 m hreach⟩

/-- A client that sends data before the answer is dropped, and its channel stays open. -/
theorem droppedClient_not_accounted :
    ∃ m, Run.Reach step (fun _ _ => True) (multiplexerInit (fun _ => zeroData) 3 4) m ∧
      ¬∃ opened, account m.trace = some opened ∧ Balanced opened m.clients := by
  have hrun : Run.check step (fun _ _ => true)
      (fun m => account m.trace = some [1] && m.clients.values.isEmpty) start
      (acceptClient ++ requestService ++ sendData (ascii "b") (by decide)) = true := by
    decide +kernel
  obtain ⟨m, hreach, htest⟩ := Run.exists_reach_of_check (fun _ _ _ => trivial) hrun
  rw [Bool.and_eq_true, List.isEmpty_iff] at htest
  obtain ⟨haccount, hnone⟩ := htest
  refine ⟨m, hreach, ?_⟩
  rintro ⟨opened, hopened, hbal⟩
  obtain rfl := Option.some.inj (hopened.symm.trans (of_decide_eq_true haccount))
  obtain ⟨-, c, cl, hget, -⟩ := (hbal 1).mp List.mem_cons_self
  have hmem := Registry.mem_values_iff.mpr ⟨c, hget⟩
  rw [hnone] at hmem
  cases hmem

end Multiplexer

end AndroidRenderer.Qemud
