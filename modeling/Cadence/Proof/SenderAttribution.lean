import Cadence.Async.UdpSocket
import Cadence.Foundation.StepSystem

/-!
# Whom a datagram is said to come from

The endpoint object holds the sender of the datagram stored last. A handler reads it when it runs,
and by then the datagram of a later operation may have been stored.
-/

namespace Cadence.SenderAttribution

open StepSystem UdpImpl

variable {Writer : Type}

/-- Each future that resolved with a value has the sender of the datagram in its operation's
buffer. -/
def Attributed (impl : UdpImpl Writer) : Prop :=
  ∀ resolved ∈ impl.resolved, ∀ value, resolved.value = .ok value →
    ∃ sender length, resolved.arrival = .stored sender length ∧ value = fromAsioEndpoint sender

def lastSender : List (Performed Writer) → Option AsioEndpoint
  | [] => none
  | operation :: performed =>
      match lastSender performed, operation.arrival with
      | some sender, _ => some sender
      | none, .stored sender _ => some sender
      | none, .failed _ => none

theorem lastSender_append_stored {performed : List (Performed Writer)} {dest : Writer}
    {sender : AsioEndpoint} {length : Nat} :
    lastSender (performed ++ [⟨dest, .stored sender length⟩]) = some sender := by
  induction performed with
  | nil => rfl
  | cons operation performed ih => rw [List.cons_append, lastSender, ih]

theorem lastSender_append_failed {performed : List (Performed Writer)} {dest : Writer}
    {ec : Errno} : lastSender (performed ++ [⟨dest, .failed ec⟩]) = lastSender performed := by
  induction performed with
  | nil => rfl
  | cons operation performed ih => rw [List.cons_append, lastSender, lastSender, ih]

theorem lastSender_of_tail {operation : Performed Writer} {performed : List (Performed Writer)}
    {sender : AsioEndpoint} (hlast : lastSender performed = some sender) :
    lastSender (operation :: performed) = some sender := by
  rw [lastSender, hlast]

theorem exists_lastSender {operation : Performed Writer} (performed : List (Performed Writer))
    {sender : AsioEndpoint} {length : Nat} (harrival : operation.arrival = .stored sender length) :
    ∃ last, lastSender (operation :: performed) = some last := by
  rw [lastSender, harrival]
  cases lastSender performed with
  | none => exact ⟨sender, rfl⟩
  | some last => exact ⟨last, rfl⟩

/-- When a datagram is delivered, the one stored last comes from the same endpoint. -/
def FromOneSender (impl : UdpImpl Writer) : Action Writer → Prop
  | .deliver =>
      ∀ operation performed sender length, impl.performed = operation :: performed →
        operation.arrival = .stored sender length →
        ∀ last, lastSender impl.performed = some last →
          fromAsioEndpoint last = fromAsioEndpoint sender
  | _ => True

structure Invariant (impl : UdpImpl Writer) : Prop where
  attributed : Attributed impl
  last : ∀ sender, lastSender impl.performed = some sender → impl.pe = sender

theorem invariant_create (pe : AsioEndpoint) : Invariant (create pe : UdpImpl Writer) where
  attributed _ hresolved := by cases hresolved
  last _ hlast := by cases hlast

variable [ByteWriter Writer]

theorem step_cases {impl next : UdpImpl Writer} {action : Action Writer}
    (hstep : step impl action = some next) :
    ((∃ dest length sender, next.pe = sender ∧
        next.performed = impl.performed ++ [⟨dest, .stored sender length⟩]) ∨
      (next.pe = impl.pe ∧ (next.performed = impl.performed ∨
        ∃ dest ec, next.performed = impl.performed ++ [⟨dest, .failed ec⟩]))) ∧
      next.resolved = impl.resolved ∧ FromOneSender impl action ∨
    ∃ operation value, action = .deliver ∧ impl.performed = operation :: next.performed ∧
      next.pe = impl.pe ∧ next.resolved = impl.resolved ++ [⟨operation.arrival, value⟩] ∧
      ∀ endpoint, value = .ok endpoint ↔
        (∃ sender length, operation.arrival = .stored sender length) ∧
          endpoint = fromAsioEndpoint impl.pe := by
  cases action with
  | asyncReadFrom dest bytesToRead =>
      simp only [step, UdpImpl.asyncReadFrom] at hstep
      cases hview : ByteCursor.asioBuffer dest bytesToRead with
      | error e => simp [hview, Except.map, Except.toOption] at hstep
      | ok view =>
          rw [hview] at hstep
          obtain rfl := Option.some.inj hstep
          exact Or.inl ⟨Or.inr ⟨rfl, Or.inl rfl⟩, rfl, trivial⟩
  | perform sender data =>
      simp only [step, UdpImpl.perform] at hstep
      cases hposted : impl.posted with
      | nil => simp [hposted] at hstep
      | cons operation posted =>
          rw [hposted] at hstep
          obtain rfl := Option.some.inj hstep
          exact Or.inl ⟨Or.inl ⟨_, _, sender, rfl, rfl⟩, rfl, trivial⟩
  | fail ec =>
      simp only [step, UdpImpl.fail] at hstep
      cases hposted : impl.posted with
      | nil => simp [hposted] at hstep
      | cons operation posted =>
          rw [hposted] at hstep
          obtain rfl := Option.some.inj hstep
          exact Or.inl ⟨Or.inr ⟨rfl, Or.inr ⟨_, ec, rfl⟩⟩, rfl, trivial⟩
  | deliver =>
      simp only [step, UdpImpl.deliver] at hstep
      cases hperformed : impl.performed with
      | nil => simp [hperformed] at hstep
      | cons operation performed =>
          rw [hperformed] at hstep
          obtain rfl := Option.some.inj hstep
          refine Or.inr ⟨operation, _, rfl, rfl, rfl, rfl, fun endpoint => ?_⟩
          cases operation.arrival with
          | stored sender length => simp [ReadFromHandler, eq_comm]
          | failed ec => simp [ReadFromHandler]

theorem Invariant.of_step {impl next : UdpImpl Writer} {action : Action Writer}
    (hinv : Invariant impl) (hstep : step impl action = some next)
    (hguard : FromOneSender impl action) : Invariant next := by
  rcases step_cases hstep with ⟨hqueue, hresolved, _⟩ |
    ⟨operation, value, rfl, hperformed, hpe, hresolved, hvalue⟩
  · refine ⟨?_, ?_⟩
    · unfold Attributed
      rw [hresolved]
      exact hinv.attributed
    · rcases hqueue with ⟨dest, length, sender, hpe, hperformed⟩ |
        ⟨hpe, hperformed | ⟨dest, ec, hperformed⟩⟩
      · rw [hperformed, lastSender_append_stored, hpe]
        exact fun _ hsender => Option.some.inj hsender
      · rw [hperformed, hpe]
        exact hinv.last
      · rw [hperformed, lastSender_append_failed, hpe]
        exact hinv.last
  · refine ⟨?_, fun sender hlast => ?_⟩
    · intro resolved hmem endpoint hendpoint
      rw [hresolved] at hmem
      rcases List.mem_append.mp hmem with hold | hnew
      · exact hinv.attributed resolved hold endpoint hendpoint
      · obtain rfl := List.mem_singleton.mp hnew
        obtain ⟨⟨sender, length, harrival⟩, rfl⟩ := (hvalue endpoint).mp hendpoint
        obtain ⟨last, hlast⟩ := exists_lastSender next.performed harrival
        rw [← hperformed] at hlast
        refine ⟨sender, length, harrival, ?_⟩
        rw [hinv.last last hlast]
        exact hguard operation next.performed sender length hperformed harrival last hlast
    · rw [hpe]
      apply hinv.last
      rw [hperformed]
      exact lastSender_of_tail hlast

theorem Invariant.fromOneSender {impl next : UdpImpl Writer} {action : Action Writer}
    (hinv : Invariant impl) (hstep : step impl action = some next)
    (hattributed : Attributed next) : FromOneSender impl action := by
  rcases step_cases hstep with ⟨_, _, hguard⟩ |
    ⟨operation, value, rfl, hperformed, _, hresolved, hvalue⟩
  · exact hguard
  · intro operation' performed sender length hhead harrival last hlast
    obtain ⟨rfl, _⟩ := List.cons.inj (hhead.symm.trans hperformed)
    have hendpoint := (hvalue (fromAsioEndpoint impl.pe)).mpr ⟨⟨sender, length, harrival⟩, rfl⟩
    obtain ⟨sender', length', harrival', hsame⟩ :=
      hattributed ⟨operation'.arrival, value⟩ (by simp [hresolved]) _ hendpoint
    obtain ⟨rfl, _⟩ := Arrival.stored.inj (harrival.symm.trans harrival')
    rw [← hinv.last last hlast, hsame]

/-- **Senders.** All along a run every future that resolved with a value names the sender of the
datagram in its buffer, exactly when each delivery of a datagram happens while the datagram stored
last is from the same endpoint. -/
theorem attributed_iff_fromOneSender (pe : AsioEndpoint) (actions : List (Action Writer)) :
    Always step Attributed (create pe) actions ↔
      Guarded step FromOneSender (create pe) actions := by
  apply always_iff_guarded Invariant (invariant_create pe)
  · exact fun _ hinv => hinv.attributed
  · exact fun _ _ _ hinv hstep hguard => hinv.of_step hstep hguard
  · exact fun _ _ _ hinv hstep hattributed => hinv.fromOneSender hstep hattributed

/-- Two operations are performed before the first is delivered. -/
theorem not_attributed_of_two_senders :
    ¬ Always step Attributed
      (create ⟨.v4 #v[0, 0, 0, 0], 0⟩ : UdpImpl ArrayBuffer)
      [.asyncReadFrom ⟨[0], 0, by decide⟩ 1, .asyncReadFrom ⟨[0], 0, by decide⟩ 1,
        .perform ⟨.v4 #v[10, 0, 0, 1], 5000⟩ [1], .perform ⟨.v4 #v[10, 0, 0, 2], 5000⟩ [2],
        .deliver] := by
  intro halways
  have hlast := halways.of_run rfl
  obtain ⟨sender, length, harrival, hvalue⟩ :=
    hlast _ (List.mem_singleton.mpr rfl) _ rfl
  cases harrival
  exact absurd hvalue (by decide)

end Cadence.SenderAttribution
