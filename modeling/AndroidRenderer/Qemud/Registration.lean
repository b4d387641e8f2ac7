import AndroidRenderer.Qemud.Accounting
import AndroidRenderer.Qemud.Locality

/-!
# Registrations of clients

A client is idle until qemud sends a `connect` request for it, waits for the answer to its channel,
and is accepted or idle again behind that. `Registrations` follows these states through the requests
and the answers alone. The daemon keeps a channel and a flag, and looks for the client of an answer
by its channel only: an answer to a client that is registered is taken as one to a request, and
malformed digits read as -1, the channel of a client without a request.
-/

namespace AndroidRenderer.Qemud

/-- Where the registration of a client stands. -/
inductive Registration
  | idle
  | waiting (channel : Int)
  | accepted (channel : Int)
  deriving DecidableEq, Repr

/-- The state after a control message; `disconnect` ends the client itself. -/
def Registration.control (r : Registration) (message : Control) : Registration :=
  match r, message with
  | .waiting k, .okConnect k' => if k' = k then .accepted k else r
  | .waiting k, .koConnect k' => if k' = k then .idle else r
  | _, _ => r

def Client.registration (cl : Client) : Registration :=
  if cl.registered then .accepted cl.channel
  else if cl.channel = -1 then .idle
  else .waiting cl.channel

theorem Client.registration_waiting {cl : Client} {k : Int} (h : cl.registration = .waiting k) :
    cl.registered = false ∧ cl.channel ≠ -1 ∧ cl.channel = k := by
  unfold registration at h
  grind

theorem Client.waiting_registration {cl : Client} (hreg : cl.registered = false)
    (hchannel : cl.channel ≠ -1) : cl.registration = .waiting cl.channel := by
  rw [registration, hreg, if_neg Bool.false_ne_true, if_neg hchannel]

def Control.channel : Control → Option Int
  | .okConnect k | .koConnect k | .disconnect k => some k
  | .ignored => none

def Control.answer : Control → Option Int
  | .okConnect k | .koConnect k => some k
  | .disconnect _ | .ignored => none

theorem Control.channel_of_answer {message : Control} {k : Int} (h : k ∈ message.answer) :
    k ∈ message.channel := by
  cases message with
  | okConnect | koConnect => exact h
  | disconnect | ignored => cases h

/-- An answer for another channel is none to this request. -/
theorem Registration.control_eq_self {r : Registration} {message : Control}
    (h : ∀ k, r = .waiting k → k ∉ message.answer) : r.control message = r := by
  cases r with
  | waiting k =>
      cases message with
      | okConnect k' => exact if_neg fun heq => h k rfl (congrArg some heq)
      | koConnect k' => exact if_neg fun heq => h k rfl (congrArg some heq)
      | _ => rfl
  | _ => rfl

abbrev Registrations := ClientId → Registration

/-- The channel of the `connect` request among events. -/
def requested (events : List Event) : Option Int :=
  events.findSome? fun
    | .sent channel payload =>
        if channel = CHANNEL_CONTROL then
          match Request.parse payload with
          | .connect k => some k
          | _ => none
        else none
    | _ => none

namespace Mux

/-- The events an act adds. -/
def emitted (x y : Mux) : List Event := y.trace.drop x.trace.length

theorem emitted_eq {x y : Mux} {events : List Event} (h : y.trace = x.trace ++ events) :
    x.emitted y = events := by
  rw [emitted, h, List.drop_left]

/-- The registrations after an act that leads to `y`. -/
def registrations (x y : Mux) (g : Registrations) : Act → Registrations
  | .connect _ => Function.update g x.clients.next .idle
  | .receive _ c _ =>
      match g c, requested (x.emitted y) with
      | .accepted _, _ => g
      | _, some k => Function.update g c (.waiting k)
      | _, none => g
  | .post channel payload =>
      if channel = CHANNEL_CONTROL then fun c => (g c).control (.parse payload) else g
  | _ => g

section Requests

variable {x y : Mux} {g : Registrations} {f : HandlerId} {c : ClientId} {bytes : List UInt8}

theorem registrations_quiet (h : requested (x.emitted y) = none) :
    x.registrations y g (.receive f c bytes) = g := by
  rw [registrations, h]
  cases g c <;> rfl

theorem registrations_accepted {k : Int} (h : g c = .accepted k) :
    x.registrations y g (.receive f c bytes) = g := by
  rw [registrations, h]

theorem registrations_request {k : Int} (hg : ∀ k, g c ≠ .accepted k)
    (h : requested (x.emitted y) = some k) :
    x.registrations y g (.receive f c bytes) = Function.update g c (.waiting k) := by
  rw [registrations, h]
  simp

theorem requested_connectText (serial : HandlerId) (service : List UInt8) {channel : Nat}
    (h : channel < 256) :
    requested (.read f bytes :: sendEvents serial CHANNEL_CONTROL (connectText service channel)) =
      some (channel : Int) := by
  simp only [requested, sendEvents, List.findSome?_cons, if_true, Request.parse_connectText service h]

end Requests

/-- What the registrations allow an act to do. A client is only registered by an `ok:connect` for
the request it waits for, `ko:connect` only changes a client that waits for it, and no other client
is changed by a control message or gets an answer; `disconnect` may end the client of a channel. -/
structure Governed (x y : Mux) (g : Registrations) (a : Act) : Prop where
  registers : ∀ c cl', y.clients.get? c = some cl' → cl'.registered = true →
    (∃ cl, x.clients.get? c = some cl ∧ cl.registered = true) ∨
      ∃ payload k, a = .post CHANNEL_CONTROL payload ∧ Control.parse payload = .okConnect k ∧
        0 ≤ k ∧ g c = .waiting k
  refuses : ∀ payload k, a = .post CHANNEL_CONTROL payload →
    Control.parse payload = .koConnect k → ∀ c, y.clients.get? c ≠ x.clients.get? c →
      0 ≤ k ∧ g c = .waiting k
  spares : ∀ payload, a = .post CHANNEL_CONTROL payload → ∀ c cl, x.clients.get? c = some cl →
    (∀ k, g c ≠ .waiting k) →
      (y.clients.get? c = some cl ∨ ∃ k, g c = .accepted k ∧ 0 ≤ k ∧
        Control.parse payload = .disconnect k ∧ y.clients.get? c = none) ∧
      ∀ f ∈ cl.fdhandler, ∀ bytes, Event.queued f bytes ∉ x.emitted y

/-- A control message that names the channel of a client does so with two digits, and if it is an
answer the client is not registered yet. -/
def KeepsRegistrations (x : Mux) : Act → Prop
  | .post channel payload =>
      channel = CHANNEL_CONTROL → ∀ c cl, x.clients.get? c = some cl →
        (cl.channel ∈ (Control.parse payload).channel → cl.channel ≠ -1) ∧
        (cl.channel ∈ (Control.parse payload).answer → cl.registered = false)
  | _ => True

/-! ## Control messages -/

/-- What a control message does, with all that is known of the client it meets. -/
inductive Reply (x : Mux) (payload : List UInt8) : Registry Client → List Event → Prop
  | accepted {c : ClientId} {cl : Client} :
      Control.parse payload = .okConnect cl.channel → x.clients.get? c = some cl →
      Reply x payload (x.clients.set c { cl with registered := true })
        (.posted CHANNEL_CONTROL payload ::
          (queuedTo cl.fdhandler (answerText true) ++ [.answered c true]))
  | refused {c : ClientId} {cl : Client} :
      Control.parse payload = .koConnect cl.channel → x.clients.get? c = some cl →
      Reply x payload (x.clients.set c { cl with registered := false, channel := -1 })
        (.posted CHANNEL_CONTROL payload ::
          (queuedTo cl.fdhandler (answerText false) ++ [.answered c false]))
  | dropped {c : ClientId} {cl : Client} :
      Control.parse payload = .disconnect cl.channel → x.clients.get? c = some cl →
      Reply x payload (x.clients.remove c) [.posted CHANNEL_CONTROL payload]
  | unknown :
      (∀ c cl, x.clients.get? c = some cl → cl.channel ∉ (Control.parse payload).channel) →
      Reply x payload x.clients [.posted CHANNEL_CONTROL payload]

theorem post_reply (x : Mux) (payload : List UInt8) :
    ∃ events, (x.next (.post CHANNEL_CONTROL payload)).trace = x.trace ++ events ∧
      Reply x payload (x.next (.post CHANNEL_CONTROL payload)).clients events := by
  let P (y : Mux) := ∃ events, y.trace = x.trace ++ events ∧ Reply x payload y.clients events
  -- no client waits for the channel of the message
  have hunknown : ∀ {k : Int}, (Control.parse payload).channel = some k →
      (∀ c cl, x.clients.get? c = some cl → cl.channel ≠ k) →
      P (x.log [.posted CHANNEL_CONTROL payload]) := fun hk hnone =>
    ⟨_, rfl, .unknown fun c cl hget hmem =>
      hnone c cl hget (Option.some.inj (hk.symm.trans hmem)).symm⟩
  simp only [next, post, if_true]
  unfold control
  cases hparse : Control.parse payload with
  | okConnect k =>
      refine withClient_cases (P := P) (hunknown (by rw [hparse]; rfl)) ?_
      rintro c cl hget rfl
      simp only [answer, hget]
      exact ⟨_, by simp only [log, setClient, List.append_assoc, List.cons_append,
        List.nil_append], .accepted hparse hget⟩
  | koConnect k =>
      refine withClient_cases (P := P) (hunknown (by rw [hparse]; rfl)) ?_
      rintro c cl hget rfl
      simp only [answer, hget]
      exact ⟨_, by simp only [log, setClient, List.append_assoc, List.cons_append,
        List.nil_append], .refused hparse hget⟩
  | disconnect k =>
      refine withClient_cases (P := P) (hunknown (by rw [hparse]; rfl)) ?_
      rintro c cl hget rfl
      exact ⟨_, rfl, .dropped hparse hget⟩
  | ignored =>
      refine ⟨_, rfl, .unknown fun c cl hget hk => ?_⟩
      rw [hparse] at hk
      cases hk

/-! ## The invariant -/

/-- The fields of the clients are their registrations, and a channel has one client. -/
structure Follows (x : Mux) (g : Registrations) : Prop where
  agree : ∀ c cl, x.clients.get? c = some cl → g c = cl.registration
  channel : ∀ c cl, x.clients.get? c = some cl →
    cl.channel = -1 ∧ cl.registered = false ∨ 0 ≤ cl.channel
  sole : ∀ c cl c' cl', x.clients.get? c = some cl → x.clients.get? c' = some cl' →
    cl'.channel = cl.channel → 0 ≤ cl.channel → c' = c
  handled : ∀ c cl, x.clients.get? c = some cl → ∃ f, cl.fdhandler = some f

namespace Follows

variable {x y : Mux} {g g' : Registrations}

theorem same (h : x.Follows g) (hclients : y.clients = x.clients)
    (hg : ∀ c cl, x.clients.get? c = some cl → g' c = g c) : y.Follows g' := by
  refine ⟨?_, ?_, ?_, ?_⟩
  · grind [h.agree]
  · rw [hclients]
    exact h.channel
  · rw [hclients]
    exact h.sole
  · rw [hclients]
    exact h.handled

theorem remove {c : ClientId} (h : x.Follows g) (hclients : y.clients = x.clients.remove c)
    (hg : ∀ c' cl, x.clients.get? c' = some cl → g' c' = g c') : y.Follows g' := by
  have hback : ∀ c' cl, y.clients.get? c' = some cl → x.clients.get? c' = some cl := by
    simp [Registry.get?_remove, hclients]
  exact ⟨fun c' cl hget => (hg c' cl (hback c' cl hget)).trans (h.agree c' cl (hback c' cl hget)),
    fun c' cl hget => h.channel c' cl (hback c' cl hget),
    fun c' cl c'' cl'' hget hget' => h.sole c' cl c'' cl'' (hback c' cl hget) (hback c'' cl'' hget'),
    fun c' cl hget => h.handled c' cl (hback c' cl hget)⟩

/-- A client of its own channel, or of none, is changed. -/
theorem set {c : ClientId} {cl cl' : Client} (h : x.Follows g) (hget : x.clients.get? c = some cl)
    (hclients : y.clients = x.clients.set c cl') (hf : cl'.fdhandler = cl.fdhandler)
    (hown : g' c = cl'.registration)
    (hg : ∀ c' cl₁, x.clients.get? c' = some cl₁ → c' ≠ c → g' c' = g c')
    (hchannel : cl'.channel = -1 ∧ cl'.registered = false ∨ 0 ≤ cl'.channel)
    (hsole : 0 ≤ cl'.channel → ∀ c' cl₁, x.clients.get? c' = some cl₁ → c' ≠ c →
      cl₁.channel ≠ cl'.channel) : y.Follows g' := by
  have hcases : ∀ c' cl₁, y.clients.get? c' = some cl₁ →
      c' = c ∧ cl₁ = cl' ∨ c' ≠ c ∧ x.clients.get? c' = some cl₁ := by grind
  refine ⟨fun c' cl₁ hget' => ?_, fun c' cl₁ hget' => ?_, fun c₁ cl₁ c₂ cl₂ hget₁ hget₂ heq hpos => ?_,
    fun c' cl₁ hget' => ?_⟩
  · grind [h.agree]
  · grind [h.channel]
  · grind [h.sole]
  · grind [h.handled]

/-- A control message that meets the condition is followed. -/
theorem post {payload : List UInt8} {events : List Event} (h : x.Follows g)
    (hkeeps : x.KeepsRegistrations (.post CHANNEL_CONTROL payload))
    (hreply : Reply x payload y.clients events) :
    y.Follows fun c => (g c).control (Control.parse payload) := by
  -- another client waits for another channel
  have hother : ∀ c cl, x.clients.get? c = some cl → cl.channel ∉ (Control.parse payload).answer →
      (g c).control (Control.parse payload) = g c := by
    intro c cl hget hanswer
    refine Registration.control_eq_self fun k hk => ?_
    rw [h.agree c cl hget] at hk
    obtain ⟨-, -, rfl⟩ := Client.registration_waiting hk
    exact hanswer
  generalize hclients : y.clients = clients at hreply
  cases hreply with
  | @accepted c cl hparse hget =>
      obtain ⟨hchannel, hreg⟩ := hkeeps rfl c cl hget
      rw [hparse] at hchannel hreg hother
      rw [hparse]
      have hpos : 0 ≤ cl.channel := (h.channel c cl hget).resolve_left fun hnone =>
        hchannel rfl hnone.1
      refine h.set hget hclients rfl ?_ ?_ (.inr hpos) ?_
      · rw [h.agree c cl hget, Client.waiting_registration (hreg rfl) (hchannel rfl)]
        exact if_pos rfl
      · intro c' cl₁ hget₁ hne
        refine hother c' cl₁ hget₁ fun hk => hne ?_
        exact h.sole c cl c' cl₁ hget hget₁ (Option.some.inj hk).symm hpos
      · exact fun _ c' cl₁ hget₁ hne heq => hne (h.sole c cl c' cl₁ hget hget₁ heq hpos)
  | @refused c cl hparse hget =>
      obtain ⟨hchannel, hreg⟩ := hkeeps rfl c cl hget
      rw [hparse] at hchannel hreg hother
      rw [hparse]
      have hpos : 0 ≤ cl.channel := (h.channel c cl hget).resolve_left fun hnone =>
        hchannel rfl hnone.1
      refine h.set hget hclients rfl ?_ ?_ (.inl ⟨rfl, rfl⟩) ?_
      · rw [h.agree c cl hget, Client.waiting_registration (hreg rfl) (hchannel rfl)]
        exact if_pos rfl
      · intro c' cl₁ hget₁ hne
        refine hother c' cl₁ hget₁ fun hk => hne ?_
        exact h.sole c cl c' cl₁ hget hget₁ (Option.some.inj hk).symm hpos
      · exact fun hneg => absurd (show (0 : Int) ≤ -1 from hneg) (by decide)
  | @dropped c cl hparse hget =>
      refine h.remove hclients fun c' cl₁ hget₁ => hother c' cl₁ hget₁ ?_
      rw [hparse]
      exact fun hk => nomatch hk
  | unknown hnone => grind [Control.channel_of_answer, h.same]

theorem next {a : Act} (h : x.Follows g) (hkeeps : x.KeepsRegistrations a) :
    (x.next a).Follows (x.registrations (x.next a) g a) := by
  by_cases hpost : ∃ payload, a = .post CHANNEL_CONTROL payload
  · obtain ⟨payload, rfl⟩ := hpost
    obtain ⟨events, -, hreply⟩ := x.post_reply payload
    grind [registrations, h.post]
  obtain ⟨events, htrace, hchange⟩ := x.next_changes a
  have hemitted := emitted_eq htrace
  generalize hy : x.next a = y at *
  generalize hclients : y.clients = clients at hchange
  cases hchange with
  | silent | read | wrote | gone => exact h.same hclients fun _ _ _ => rfl
  | closed | left => exact h.remove hclients fun _ _ _ => rfl
  | connect f =>
      have hcases : ∀ c cl, y.clients.get? c = some cl →
          c = x.clients.next ∧ cl = ⟨-1, false, some f⟩ ∨
            c ≠ x.clients.next ∧ x.clients.get? c = some cl := by grind
      refine ⟨fun c cl hget => ?_, fun c cl hget => ?_, fun c₁ cl₁ c₂ cl₂ hget₁ hget₂ heq hpos => ?_,
        fun c cl hget => ?_⟩
      · obtain ⟨rfl, rfl⟩ | ⟨hne, hold⟩ := hcases c cl hget
        · exact Function.update_self _ _ _
        · exact (Function.update_of_ne hne _ _).trans (h.agree c cl hold)
      · grind [h.channel]
      · grind [h.sole]
      · grind [h.handled]
  | orphan f bytes =>
      rw [registrations_quiet (by rw [hemitted]; rfl)]
      exact h.same hclients fun _ _ _ => rfl
  | @forward c cl f bytes hget hreg =>
      have haccepted : g c = .accepted cl.channel := by
        rw [h.agree c cl hget, Client.registration, if_pos hreg]
      rw [registrations_accepted haccepted]
      exact h.same hclients fun _ _ _ => rfl
  | early f bytes | tooLong f bytes =>
      rw [registrations_quiet (by rw [hemitted]; rfl)]
      exact h.remove hclients fun _ _ _ => rfl
  | @request c cl f bytes channel hget hreg hnone hfits hlt hunused =>
      have hidle : ∀ k, g c ≠ .accepted k := by
        intro k hk
        rw [h.agree c cl hget, Client.registration, hreg, if_neg Bool.false_ne_true] at hk
        split at hk <;> cases hk
      rw [registrations_request hidle (by rw [hemitted]; exact requested_connectText _ _ hlt)]
      refine h.set hget hclients rfl ?_ (fun c' cl₁ _ hne => Function.update_of_ne hne _ _)
        (.inr (Int.natCast_nonneg _)) fun _ c' cl₁ hget₁ _ => hunused c' cl₁ hget₁
      grind [Client.waiting_registration]
  | accepted payload | refused payload | dropped payload | unanswered payload =>
      exact absurd ⟨payload, rfl⟩ hpost
  | deliver payload hget hchannel =>
      rw [registrations, if_neg hchannel]
      exact h.same hclients fun _ _ _ => rfl
  | discard channel payload hchannel =>
      rw [registrations, if_neg hchannel]
      exact h.same hclients fun _ _ _ => rfl

end Follows

/-! ## What an act does -/

def Handled (clients : Registry Client) : Prop :=
  ∀ c cl c' cl' f, clients.get? c = some cl → clients.get? c' = some cl' →
    f ∈ cl.fdhandler → f ∈ cl'.fdhandler → c' = c

section Governed

variable {x y : Mux} {g : Registrations} {payload : List UInt8} {events : List Event}
  {c : ClientId} {cl : Client}

/-- Only control messages register clients. -/
theorem governed_of_ne {a : Act} (ha : ∀ payload, a ≠ .post CHANNEL_CONTROL payload) :
    x.Governed (x.next a) g a := by
  refine ⟨fun c cl' hget' hreg' => .inl ?_, fun payload k heq => absurd heq (ha payload),
    fun payload heq => absurd heq (ha payload)⟩
  obtain ⟨events, -, hchange⟩ := x.next_changes a
  generalize (x.next a).clients = clients at hget' hchange
  have hremove : ∀ c₀, (x.clients.remove c₀).get? c = some cl' →
      ∃ cl, x.clients.get? c = some cl ∧ cl.registered = true := by grind
  cases hchange with
  | early | tooLong | closed | left => exact hremove _ hget'
  | connect f =>
      rw [Registry.get?_insert] at hget'
      grind
  | @request c₀ cl f bytes channel hget hreg => grind
  | accepted payload | refused payload | dropped payload | unanswered payload =>
      exact absurd rfl (ha payload)
  | _ => exact ⟨cl', hget', hreg'⟩

/-- A client that waits for no answer must not be answered. -/
theorem Governed.spared (h : x.Follows g)
    (hgoverned : x.Governed y g (.post CHANNEL_CONTROL payload))
    (hget : x.clients.get? c = some cl) {registered : Bool}
    (htrace : y.trace = x.trace ++ (.posted CHANNEL_CONTROL payload ::
      (queuedTo cl.fdhandler (answerText registered) ++ [.answered c registered]))) :
    cl.channel ≠ -1 ∧ cl.registered = false := by
  obtain ⟨f, hf⟩ := h.handled c cl hget
  have hqueued : Event.queued f (answerText registered) ∈ x.emitted y := by
    rw [emitted_eq htrace, hf]
    exact List.mem_cons_of_mem _ List.mem_cons_self
  by_contra hnot
  have hidle : ∀ k, g c ≠ .waiting k := by grind [h.agree, Client.registration_waiting]
  exact (hgoverned.spares payload rfl c cl hget hidle).2 f hf _ hqueued

theorem governed_answer (h : x.Follows g) (hhandled : Handled x.clients)
    (hget : x.clients.get? c = some cl) {registered : Bool} {cl' : Client}
    (hclients : y.clients = x.clients.set c cl')
    (htrace : y.trace = x.trace ++ (.posted CHANNEL_CONTROL payload ::
      (queuedTo cl.fdhandler (answerText registered) ++ [.answered c registered])))
    (hcl' : cl'.registered = registered)
    (hparse : Control.parse payload = if registered then .okConnect cl.channel
      else .koConnect cl.channel) :
    x.Governed y g (.post CHANNEL_CONTROL payload) ↔
      x.KeepsRegistrations (.post CHANNEL_CONTROL payload) := by
  have hanswer : (Control.parse payload).answer = some cl.channel := by
    rw [hparse]
    cases registered <;> rfl
  have hchannel := Control.channel_of_answer hanswer
  constructor
  · intro hgoverned
    obtain ⟨hne, hreg⟩ := hgoverned.spared h hget htrace
    have hpos := (h.channel c cl hget).resolve_left fun hnone => hne hnone.1
    -- the message names no other client
    have hmet : ∀ c₁ cl₁, x.clients.get? c₁ = some cl₁ → cl₁.channel = cl.channel → cl₁ = cl := by
      intro c₁ cl₁ hget₁ hk
      obtain rfl := h.sole c cl c₁ cl₁ hget hget₁ hk hpos
      exact Option.some.inj (hget₁.symm.trans hget)
    intro _ c₁ cl₁ hget₁
    rw [Option.mem_def.mp hchannel, hanswer]
    refine ⟨fun hk => ?_, fun hk => ?_⟩ <;>
    · obtain rfl := hmet c₁ cl₁ hget₁ (Option.some.inj hk).symm
      assumption
  intro hkeeps
  obtain ⟨hne, hreg⟩ := hkeeps rfl c cl hget
  have hpos := (h.channel c cl hget).resolve_left fun hnone => hne hchannel hnone.1
  have hwaiting : g c = .waiting cl.channel := by
    rw [h.agree c cl hget, Client.waiting_registration (hreg hanswer)]
    omega
  have hother : ∀ c', c' ≠ c → y.clients.get? c' = x.clients.get? c' := fun c' hne => by
    rw [hclients, Registry.get?_set, if_neg hne]
  refine ⟨fun c₁ cl₁ hget₁ hreg₁ => ?_, fun payload₁ k heq hko c₁ hne => ?_,
    fun payload₁ heq c₁ cl₁ hget₁ hidle => ?_⟩
  · grind
  · grind
  · have hc : c₁ ≠ c := fun hc => hidle cl.channel (hc ▸ hwaiting)
    refine ⟨.inl ((hother c₁ hc).trans hget₁), fun f hf bytes hmem => ?_⟩
    rw [emitted_eq htrace] at hmem
    cases hmem with
    | tail _ hmem =>
        obtain hmem | hmem := List.mem_append.mp hmem
        · obtain ⟨f', hf', heq'⟩ := List.mem_map.mp hmem
          obtain ⟨rfl, -⟩ := Event.queued.inj heq'
          exact hc (hhandled c cl c₁ cl₁ f' hget hget₁ (Option.mem_toList.mp hf') hf)
        · cases List.mem_singleton.mp hmem

theorem not_queued_posted {f : HandlerId} {bytes : List UInt8}
    (htrace : y.trace = x.trace ++ [.posted CHANNEL_CONTROL payload]) :
    Event.queued f bytes ∉ x.emitted y := by
  rw [emitted_eq htrace]
  simp

theorem governed_unknown (hclients : y.clients = x.clients)
    (htrace : y.trace = x.trace ++ [.posted CHANNEL_CONTROL payload]) :
    x.Governed y g (.post CHANNEL_CONTROL payload) := by
  refine ⟨fun c cl hget hreg => .inl ⟨cl, hclients ▸ hget, hreg⟩,
    fun _ _ _ _ c hne => absurd (by rw [hclients]) hne, fun _ _ c cl hget _ => ⟨.inl ?_, ?_⟩⟩
  · rw [hclients]
    exact hget
  · exact fun f _ bytes => not_queued_posted htrace

/-- The emulator may end the client of a channel. -/
theorem governed_dropped (h : x.Follows g) (hget : x.clients.get? c = some cl)
    (hpos : 0 ≤ cl.channel) (hparse : Control.parse payload = .disconnect cl.channel)
    (hclients : y.clients = x.clients.remove c)
    (htrace : y.trace = x.trace ++ [.posted CHANNEL_CONTROL payload]) :
    x.Governed y g (.post CHANNEL_CONTROL payload) := by
  have hget' : ∀ c', y.clients.get? c' = if c' = c then none else x.clients.get? c' := fun c' => by
    rw [hclients, Registry.get?_remove]
  refine ⟨fun c' cl' hget₁ hreg => .inl ⟨cl', ?_, hreg⟩, fun payload₁ k heq hko => ?_,
    fun payload₁ heq c' cl' hget₁ hidle => ⟨?_, fun f _ bytes => not_queued_posted htrace⟩⟩
  · grind
  · grind
  · obtain ⟨-, rfl⟩ := Act.post.inj heq
    by_cases hc : c' = c
    · subst hc
      obtain rfl := Option.some.inj (hget.symm.trans hget₁)
      refine .inr ⟨cl.channel, ?_, hpos, hparse, by rw [hget', if_pos rfl]⟩
      have hreg : cl.registered = true := by
        by_contra hreg
        rw [Bool.not_eq_true] at hreg
        refine hidle cl.channel ?_
        rw [h.agree c' cl hget, Client.waiting_registration hreg]
        omega
      rw [h.agree c' cl hget, Client.registration, if_pos hreg]
    · grind

/-- The registrations govern an act if and only if it meets the condition. -/
theorem governed_iff {a : Act} (h : x.Follows g) (hhandled : Handled x.clients) :
    x.Governed (x.next a) g a ↔ x.KeepsRegistrations a := by
  by_cases hpost : ∃ payload, a = .post CHANNEL_CONTROL payload
  · obtain ⟨payload, rfl⟩ := hpost
    obtain ⟨events, htrace, hreply⟩ := x.post_reply payload
    generalize hy : x.next (.post CHANNEL_CONTROL payload) = y at *
    generalize hclients : y.clients = clients at hreply
    cases hreply with
    | @accepted c cl hparse hget => exact governed_answer h hhandled hget hclients htrace rfl hparse
    | @refused c cl hparse hget => exact governed_answer h hhandled hget hclients htrace rfl hparse
    | @dropped c cl hparse hget =>
        have hgone : y.clients.get? c = none := by rw [hclients, Registry.get?_remove, if_pos rfl]
        constructor
        · intro hgoverned _ c' cl' hget'
          rw [hparse]
          refine ⟨fun hk hnone => ?_, fun hk => nomatch hk⟩
          have hchannel : cl.channel = -1 := (Option.some.inj hk).trans hnone
          have hreg : cl.registered = false := by
            obtain ⟨-, hreg⟩ | hpos := h.channel c cl hget
            · exact hreg
            · omega
          have hidle : g c = .idle := by
            rw [h.agree c cl hget, Client.registration, hreg, if_neg Bool.false_ne_true, if_pos hchannel]
          grind [hgoverned.spares]
        · intro hkeeps
          have hne := (hkeeps rfl c cl hget).1 (by rw [hparse]; rfl)
          grind [governed_dropped, h.channel]
    | unknown hnone =>
        refine iff_of_true (governed_unknown hclients htrace) fun _ c cl hget => ?_
        grind [Control.channel_of_answer]
  · refine iff_of_true (governed_of_ne fun payload heq => hpost ⟨payload, heq⟩) ?_
    cases a with
    | post channel payload =>
        rintro rfl
        exact absurd ⟨payload, rfl⟩ hpost
    | _ => trivial

end Governed

end Mux

namespace Multiplexer

/-! ## Runs -/

def stepRegistrations (s : Multiplexer × Registrations) (label : Label) :
    Except Fault (Multiplexer × Registrations) :=
  (s.1.step label).map fun m' => (m', s.1.mux.registrations m'.mux s.2 (s.1.act label))

/-- The next step meets the condition on control messages. -/
def KeepsRegistrations (s : Multiplexer × Registrations) (label : Label) : Prop :=
  s.1.mux.KeepsRegistrations (s.1.act label)

theorem Sound.handled {m : Multiplexer} (h : m.Sound) : Mux.Handled m.mux.clients :=
  fun c cl c' cl' f hget hget' hf hf' => (h.sole c cl f hget hf).2 c' cl' hget' hf'

/-- In every run whose steps meet the condition on control messages, the registrations govern the
next step if and only if it meets the condition too. -/
theorem registrations_governed (heap : Nat → Buffer UInt8 MAX_PAYLOAD) (fd controlFd : Nat)
    (s : Multiplexer × Registrations)
    (hreach : Run.Reach stepRegistrations KeepsRegistrations
      (multiplexerInit heap fd controlFd, fun _ => .idle) s)
    (label : Label) (m' : Multiplexer) (hstep : s.1.step label = .ok m') :
    Mux.Governed s.1.mux m'.mux s.2 (s.1.act label) ↔ KeepsRegistrations s label := by
  suffices s.1.Sound ∧ s.1.mux.Follows s.2 by
    rw [step_mux hstep]
    exact Mux.governed_iff this.2 this.1.handled
  refine hreach.invariant (I := fun s => s.1.Sound ∧ s.1.mux.Follows s.2) ?_
    fun t label u ht hkeeps hu => ?_
  · refine ⟨multiplexerInit_sound heap fd controlFd, fun _ _ hget => ?_, fun _ _ hget => ?_,
      fun _ _ _ _ hget => ?_, fun _ _ hget => ?_⟩ <;> cases hget
  · obtain ⟨m', hm', rfl⟩ := Run.map_eq_ok.mp hu
    have hwithin := step_within (S := fun _ => True) ht.1 (fun _ _ => trivial) trivial
      (fun _ _ => trivial) hm'
    refine ⟨hwithin.sound, ?_⟩
    dsimp only
    rw [step_mux hm']
    exact ht.2.next hkeeps

/-! ## Answers to a client -/

def readControl (text : List UInt8) (h : text.length = 13) : List Label :=
  [.wait [(3, .EPOLLIN)],
    .read (some ⟨ascii "00000d" ++ text, by
      rw [List.length_append, h]
      decide⟩), .tick]

def keepsRegistrationsTest (s : Multiplexer × Registrations) (label : Label) : Bool :=
  match s.1.act label with
  | .post _ payload => s.1.clients.values.all fun cl =>
      ((Control.parse payload).channel != some cl.channel || cl.channel != -1) &&
        ((Control.parse payload).answer != some cl.channel || !cl.registered)
  | _ => true

theorem keepsRegistrationsTest_sound (s : Multiplexer × Registrations) (label : Label)
    (h : keepsRegistrationsTest s label = true) : KeepsRegistrations s label := by
  unfold KeepsRegistrations
  unfold keepsRegistrationsTest at h
  cases hact : s.1.act label with
  | post channel payload =>
      intro _ c cl hget
      rw [hact] at h
      simp only [List.all_eq_true, Bool.and_eq_true, Bool.or_eq_true, bne_iff_ne,
        Bool.not_eq_true'] at h
      obtain ⟨hchannel, hanswer⟩ := h cl (Registry.mem_values_iff.mpr ⟨c, hget⟩)
      exact ⟨fun hk => hchannel.resolve_left (not_not_intro hk),
        fun hk => hanswer.resolve_left (not_not_intro hk)⟩
  | _ => trivial

/-- What client 0 is, and what the next step makes of it. -/
def clientTest (registration : Registration) (before after : Client)
    (s : Multiplexer × Registrations) : Bool :=
  s.2 0 = registration && s.1.clients.get? 0 = some before &&
    match s.1.step .tick with
    | .ok m' => m'.clients.get? 0 = some after
    | .error _ => false

theorem clientTest_sound {registration : Registration} {before after : Client}
    {s : Multiplexer × Registrations} (h : clientTest registration before after s = true) :
    s.2 0 = registration ∧ s.1.clients.get? 0 = some before ∧
      ∃ m', s.1.step .tick = .ok m' ∧ m'.clients.get? 0 = some after := by
  simp only [clientTest, Bool.and_eq_true, decide_eq_true_eq] at h
  grind

/-- The client waits for channel 1 and is accepted. -/
theorem registrations_governed_accepted :
    ∃ (s : Multiplexer × Registrations) (m' : Multiplexer), s.2 0 = .waiting 1 ∧
      m'.clients.get? 0 = some ⟨1, true, some 2⟩ ∧
      (Mux.Governed s.1.mux m'.mux s.2 (s.1.act .tick) ↔ KeepsRegistrations s .tick) := by
  have hrun : Run.check stepRegistrations keepsRegistrationsTest
      (clientTest (.waiting 1) ⟨1, false, some 2⟩ ⟨1, true, some 2⟩) (start, fun _ => .idle)
      (acceptClient ++ requestService ++ readControl (ascii "ok:connect:01") (by decide)) = true := by
    decide +kernel
  obtain ⟨s, hreach, htest⟩ := Run.exists_reach_of_check keepsRegistrationsTest_sound hrun
  obtain ⟨hwaiting, -, m', hstep, hafter⟩ := clientTest_sound htest
  exact ⟨s, m', hwaiting, hafter,
    registrations_governed (fun _ => zeroData) 3 4 s hreach .tick m' hstep⟩

/-- An answer with malformed digits registers a client that has asked for nothing. -/
theorem malformedAnswer_registers :
    ∃ (s : Multiplexer × Registrations) (m' : Multiplexer),
      Run.Reach stepRegistrations (fun _ _ => True)
        (multiplexerInit (fun _ => zeroData) 3 4, fun _ => .idle) s ∧
      s.1.step .tick = .ok m' ∧ ¬Mux.Governed s.1.mux m'.mux s.2 (s.1.act .tick) := by
  have hrun : Run.check stepRegistrations (fun _ _ => true)
      (clientTest .idle ⟨-1, false, some 2⟩ ⟨-1, true, some 2⟩) (start, fun _ => .idle)
      (acceptClient ++ readControl (ascii "ok:connect:zz") (by decide)) = true := by
    decide +kernel
  obtain ⟨s, hreach, htest⟩ := Run.exists_reach_of_check (fun _ _ _ => trivial) hrun
  obtain ⟨hidle, hbefore, m', hstep, hafter⟩ := clientTest_sound htest
  refine ⟨s, m', hreach, hstep, fun hgoverned => ?_⟩
  obtain ⟨cl, hget, hreg⟩ | ⟨_, k, -, -, -, hwaiting⟩ := hgoverned.registers 0 _ hafter rfl
  · obtain rfl := Option.some.inj (hbefore.symm.trans hget)
    cases hreg
  · rw [hidle] at hwaiting
    cases hwaiting

end Multiplexer

end AndroidRenderer.Qemud
