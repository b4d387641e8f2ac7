import AndroidRenderer.Qemud.Act

/-!
# The changes an act can make

`Change` lists what an act can do to the clients and what it adds to the record, with all
that is known in each case. Invariants of the protocol are proved by cases on it.
-/

namespace AndroidRenderer.Qemud

/-! ## The search for a channel -/

theorem and_mask (n : Nat) : n &&& 0xff = n % 256 := Nat.and_two_pow_sub_one_eq_mod n 8

theorem findChannel_some {channels : List Int} {tries lastChannel last channel : Nat}
    (h : findChannel channels tries lastChannel = some (last, channel)) :
    (channel : Int) ∉ channels ∧ channel < 256 := by
  induction tries generalizing lastChannel with
  | zero => cases h
  | succ tries ih =>
      rw [findChannel] at h
      split at h
      · exact ih h
      · rename_i hfree
        obtain ⟨-, rfl⟩ := Prod.mk.inj (Option.some.inj h)
        exact ⟨hfree, by rw [and_mask]; exact Nat.mod_lt _ (by decide)⟩

/-- A free number above the low byte of the counter is found before the counter wraps. -/
theorem findChannel_le {channels : List Int} {tries lastChannel last channel free : Nat}
    (h : findChannel channels tries lastChannel = some (last, channel))
    (hfree : (free : Int) ∉ channels) (hlow : lastChannel % 256 < free) (hle : free ≤ 255) :
    1 ≤ channel ∧ channel ≤ free := by
  induction tries generalizing lastChannel with
  | zero => cases h
  | succ tries ih =>
      rw [findChannel] at h
      have hnext : ((lastChannel + 1) % 2 ^ 32) % 256 = lastChannel % 256 + 1 := by omega
      split at h
      · grind [and_mask]
      · obtain ⟨-, rfl⟩ := Prod.mk.inj (Option.some.inj h)
        rw [and_mask, hnext]
        omega

namespace Mux

def NameFits (service : List UInt8) : Prop :=
  (service.takeWhile (· != 0)).length + 11 < MAX_PAYLOAD

def Unused (clients : Registry Client) (channel : Int) : Prop :=
  ∀ c cl, clients.get? c = some cl → cl.channel ≠ channel

theorem not_mem_channels {clients : Registry Client} {channel : Int} :
    channel ∉ clients.values.map Client.channel ↔ Unused clients channel := by
  simp only [Unused, List.mem_map, Registry.mem_values_iff, not_exists, not_and,
    forall_exists_index]
  exact ⟨fun h c cl hget => h cl c hget, fun h cl c hget => h c cl hget⟩

inductive Change (x : Mux) : Act → Registry Client → List Event → Prop
  | silent : Change x .silent x.clients []
  | connect (f : HandlerId) :
      Change x (.connect f) (x.clients.insert ⟨-1, false, some f⟩) []
  | read (f : HandlerId) (bytes : List UInt8) :
      Change x (.read f bytes) x.clients [.read f bytes]
  | wrote (f : HandlerId) (bytes : List UInt8) :
      Change x (.wrote f bytes) x.clients [.wrote f bytes]
  | orphan {c : ClientId} (f : HandlerId) (bytes : List UInt8) :
      x.clients.get? c = none → Change x (.receive f c bytes) x.clients [.read f bytes]
  | forward {c : ClientId} {cl : Client} (f : HandlerId) (bytes : List UInt8) :
      x.clients.get? c = some cl → cl.registered = true →
      Change x (.receive f c bytes) x.clients
        (.read f bytes :: sendEvents x.serial cl.channel bytes)
  | early {c : ClientId} {cl : Client} (f : HandlerId) (bytes : List UInt8) :
      x.clients.get? c = some cl → cl.registered = false → 0 < cl.channel →
      Change x (.receive f c bytes) (x.clients.remove c) [.read f bytes]
  | tooLong {c : ClientId} {cl : Client} (f : HandlerId) (bytes : List UInt8) :
      x.clients.get? c = some cl → cl.registered = false → cl.channel ≤ 0 →
      Change x (.receive f c bytes) (x.clients.remove c) [.read f bytes]
  | request {c : ClientId} {cl : Client} (f : HandlerId) (bytes : List UInt8) (channel : Nat) :
      x.clients.get? c = some cl → cl.registered = false → cl.channel ≤ 0 → NameFits bytes →
      channel < 256 → Unused x.clients channel →
      (∀ free : Nat, x.lastChannel % 256 < free → free ≤ 255 → Unused x.clients free →
        1 ≤ channel) →
      Change x (.receive f c bytes) (x.clients.set c { cl with channel := channel })
        (.read f bytes :: sendEvents x.serial CHANNEL_CONTROL (connectText bytes channel))
  | accepted {c : ClientId} {cl : Client} (payload : List UInt8) :
      Control.parse payload = .okConnect cl.channel → x.clients.get? c = some cl →
      Change x (.post CHANNEL_CONTROL payload) (x.clients.set c { cl with registered := true })
        (.posted CHANNEL_CONTROL payload ::
          (queuedTo cl.fdhandler (answerText true) ++ [.answered c true]))
  | refused {c : ClientId} {cl : Client} (payload : List UInt8) :
      Control.parse payload = .koConnect cl.channel → x.clients.get? c = some cl →
      Change x (.post CHANNEL_CONTROL payload)
        (x.clients.set c { cl with registered := false, channel := -1 })
        (.posted CHANNEL_CONTROL payload ::
          (queuedTo cl.fdhandler (answerText false) ++ [.answered c false]))
  | dropped {c : ClientId} {cl : Client} (payload : List UInt8) :
      Control.parse payload = .disconnect cl.channel → x.clients.get? c = some cl →
      Change x (.post CHANNEL_CONTROL payload) (x.clients.remove c)
        [.posted CHANNEL_CONTROL payload]
  | unanswered (payload : List UInt8) :
      (∀ channel, Control.parse payload = .koConnect channel ∨
        Control.parse payload = .disconnect channel → Unused x.clients channel) →
      Change x (.post CHANNEL_CONTROL payload) x.clients [.posted CHANNEL_CONTROL payload]
  | deliver {c : ClientId} {cl : Client} (payload : List UInt8) :
      x.clients.get? c = some cl → cl.channel ≠ CHANNEL_CONTROL →
      Change x (.post cl.channel payload) x.clients
        (.posted cl.channel payload :: queuedTo cl.fdhandler payload)
  | discard (channel : Int) (payload : List UInt8) :
      channel ≠ CHANNEL_CONTROL → Unused x.clients channel →
      Change x (.post channel payload) x.clients [.posted channel payload]
  | closed {c : ClientId} {cl : Client} :
      x.clients.get? c = some cl → 0 < cl.channel →
      Change x (.hangUp c) (x.clients.remove c)
        (sendEvents x.serial CHANNEL_CONTROL (disconnectText cl.channel))
  | left {c : ClientId} {cl : Client} :
      x.clients.get? c = some cl → cl.channel ≤ 0 →
      Change x (.hangUp c) (x.clients.remove c) []
  | gone {c : ClientId} : x.clients.get? c = none → Change x (.hangUp c) x.clients []

/-- The state `y` is what an act makes of `x`. -/
def Changes (x : Mux) (a : Act) (y : Mux) : Prop :=
  ∃ events, y.trace = x.trace ++ events ∧ Change x a y.clients events

theorem receive_changes (x : Mux) (f : HandlerId) (c : ClientId) (bytes : List UInt8) :
    x.Changes (.receive f c bytes) ((x.log [.read f bytes]).receive c bytes) := by
  unfold receive
  split
  · rename_i hget
    exact ⟨_, rfl, .orphan f bytes hget⟩
  · rename_i cl hget
    split
    · rename_i hreg
      exact ⟨.read f bytes :: sendEvents x.serial cl.channel bytes,
        by simp only [send, log, List.append_assoc, List.cons_append, List.nil_append],
        .forward f bytes hget hreg⟩
    · rename_i hreg
      split
      · rename_i hpending
        exact ⟨_, rfl, .early f bytes hget (by simpa using hreg) hpending⟩
      · rename_i hchannel
        have htooLong : Change x (.receive f c bytes) (x.clients.remove c) [.read f bytes] :=
          .tooLong f bytes hget (by simpa using hreg) (by omega)
        unfold openChannel
        split
        · exact ⟨_, rfl, htooLong⟩
        · rename_i last channel hfind
          obtain ⟨hunused, hlt⟩ := findChannel_some hfind
          by_cases hfits : (connectText bytes channel).length < MAX_PAYLOAD
          · simp only [if_pos hfits]
            rw [if_neg (by omega)]
            refine ⟨.read f bytes ::
                sendEvents x.serial CHANNEL_CONTROL (connectText bytes channel),
              by simp only [send, log, setClient, List.append_assoc, List.cons_append,
                List.nil_append],
              .request f bytes channel hget (by simpa using hreg) (by omega) ?_ hlt
                (not_mem_channels.mp hunused) fun free hlow hle hfree =>
                (findChannel_le hfind (not_mem_channels.mpr hfree) hlow hle).1⟩
            rw [connectText, format02x_eq hlt] at hfits
            have h₁ : (ascii "connect:").length = 8 := by decide
            have h₂ : (ascii ":").length = 1 := by decide
            grind [NameFits, int2hex_length]
          · simp only [if_neg hfits]
            exact ⟨_, rfl, htooLong⟩

theorem hangUp_changes (x : Mux) (c : ClientId) : x.Changes (.hangUp c) (x.hangUp c) := by
  unfold hangUp
  split
  · rename_i hget
    exact ⟨[], by simp, .gone hget⟩
  · rename_i cl hget
    split
    · rename_i hchannel
      exact ⟨_, rfl, .closed hget hchannel⟩
    · rename_i hchannel
      exact ⟨[], by simp [free], .left hget (by omega)⟩

theorem control_changes (x : Mux) (payload : List UInt8) :
    x.Changes (.post CHANNEL_CONTROL payload)
      ((x.log [.posted CHANNEL_CONTROL payload]).control (.parse payload)) := by
  unfold control
  cases hparse : Control.parse payload with
  | okConnect channel =>
      refine withClient_cases (P := x.Changes _) (fun _ => ⟨_, rfl, .unanswered payload ?_⟩) ?_
      · rintro k (hk | hk) <;> rw [hparse] at hk <;> cases hk
      · rintro c cl hget rfl
        simp only [answer, hget]
        exact ⟨_, by simp only [log, setClient, List.append_assoc, List.cons_append,
          List.nil_append], .accepted payload hparse hget⟩
  | koConnect channel =>
      refine withClient_cases (P := x.Changes _) (fun hnone => ⟨_, rfl, .unanswered payload ?_⟩) ?_
      · rintro k (hk | hk) <;> rw [hparse] at hk <;> cases hk
        exact hnone
      · rintro c cl hget rfl
        simp only [answer, hget]
        exact ⟨_, by simp only [log, setClient, List.append_assoc, List.cons_append,
          List.nil_append], .refused payload hparse hget⟩
  | disconnect channel =>
      refine withClient_cases (P := x.Changes _) (fun hnone => ⟨_, rfl, .unanswered payload ?_⟩) ?_
      · rintro k (hk | hk) <;> rw [hparse] at hk <;> cases hk
        exact hnone
      · rintro c cl hget rfl
        exact ⟨_, rfl, .dropped payload hparse hget⟩
  | ignored =>
      refine ⟨_, rfl, .unanswered payload ?_⟩
      rintro k (hk | hk) <;> rw [hparse] at hk <;> cases hk

theorem next_changes (x : Mux) (a : Act) : x.Changes a (x.next a) := by
  cases a with
  | silent => exact ⟨[], by simp [next], .silent⟩
  | connect f => exact ⟨[], by simp [next, connect], .connect f⟩
  | read f bytes => exact ⟨_, rfl, .read f bytes⟩
  | receive f c bytes => exact receive_changes x f c bytes
  | wrote f bytes => exact ⟨_, rfl, .wrote f bytes⟩
  | hangUp c => exact hangUp_changes x c
  | post channel payload =>
      simp only [next, post]
      split
      · grind [control_changes]
      · rename_i hchannel
        refine withClient_cases (P := x.Changes _)
          (fun hnone => ⟨_, rfl, .discard channel payload hchannel hnone⟩) ?_
        rintro c cl hget rfl
        simp only [deliver, hget]
        exact ⟨_, by simp only [log, List.append_assoc, List.cons_append, List.nil_append],
          .deliver payload hget hchannel⟩

end Mux

end AndroidRenderer.Qemud
