import EventBroker.Proofs.ChannelHistory

/-! # The life of a channel

A channel is known by its serial number, which is given once, whatever identifiers are drawn. It
lives from the deed that makes it to one that closes it. `channels_induction` follows every live
channel through a list of deeds: it was made in one of them and has been changed by each one since.
-/
set_option autoImplicit false

namespace EventBroker

namespace Broker

/-- Whether the channel with a serial number is alive. -/
def hasChannel (b : Broker) (serial : Nat) : Prop := ∃ c ∈ b.channels, c.serial = serial

/-- Whether a deed makes the channel with a serial number. -/
def makes (serial : Nat) (y : Broker × Deed) : Bool :=
  y.1.nextChannel == serial && serial < (y.1.perform y.2).nextChannel

/-- Whether a deed closes the channel with a serial number. -/
def closes (serial : Nat) (y : Broker × Deed) : Bool :=
  match y.2.action with
  | .close n => n == serial
  | .drop => true
  | _ => false

/-- Whether a deed takes everything out of the channel with a serial number. -/
def drains (serial : Nat) (y : Broker × Deed) : Bool :=
  match y.2.action with
  | .dequeue id => y.1.means id serial
  | _ => false

/-- Whether a deed asks about the channel with a serial number. -/
def inspects (serial : Nat) (y : Broker × Deed) : Bool :=
  match y.2.action with
  | .getChannel id => y.1.means id serial
  | _ => false

variable {b : Broker}

theorem Linked.not_makes (h : b.Linked) {c : Channel} (hc : c ∈ b.channels) (d : Deed) :
    makes c.serial (b, d) = false := by
  have := h.serial_lt c hc
  rw [makes, Bool.and_eq_false_iff]
  exact .inl (by simpa using by omega)

theorem makes_next {d : Deed} (hn : (b.perform d).nextChannel = b.nextChannel + 1) :
    makes b.nextChannel (b, d) = true := by
  simp [makes, hn]

/-- A deed that does not close a channel leaves it alive. -/
theorem Linked.next_mem (h : b.Linked) {c : Channel} (hc : c ∈ b.channels) {d : Deed}
    (hd : closes c.serial (b, d) = false) : c.next b d ∈ (b.perform d).channels := by
  obtain ⟨m, action⟩ := d
  by_cases hclose : ∃ serial, action = .close serial
  · obtain ⟨serial, rfl⟩ := hclose
    show c ∈ (b.perform ⟨m, .close serial⟩).channels
    simp only [Broker.perform]
    split
    · next c' hc' =>
      rw [closeChannel_channels, serial_of_at? hc']
      have hne : (serial == c.serial) = false := hd
      refine List.mem_filter.mpr ⟨hc, ?_⟩
      rw [bne, BEq.comm, hne]
      rfl
    · exact hc
  by_cases hdrop : action = .drop
  · subst hdrop
    cases hd
  by_cases hcreate : ∃ id queues options, action = .createChannel id queues options
  · obtain ⟨id, queues, options, rfl⟩ := hcreate
    show c ∈ (b.perform ⟨m, .createChannel id queues options⟩).channels
    simp only [Broker.perform]
    rcases b.createChannel_cases id queues options m with ⟨e, he⟩ | ⟨_, _, -, -, -, he⟩
    · rw [he]
      exact hc
    · rw [he]
      exact List.mem_append_left _ hc
  · rw [h.perform_channels (fun serial he => hclose ⟨serial, he⟩) hdrop
      fun id queues options he => hcreate ⟨id, queues, options, he⟩]
    exact List.mem_map_of_mem hc

/-- What holds of a channel when it is made, and goes on to hold with each deed that it lives to
see, holds of every live channel. -/
theorem Linked.channels_induction {P : List (Broker × Deed) → Channel → Prop}
    (made : ∀ past b id queues options m ts,
      makes b.nextChannel (b, ⟨m, .createChannel id queues options⟩) = true →
      P (past ++ [(b, ⟨m, .createChannel id queues options⟩)])
        { Channel.new b.nextChannel id queues options b.channelCapacity m.now with
          sources := some ts })
    (kept : ∀ past b d c, b.Linked → c ∈ b.channels → P past c →
      P (past ++ [(b, d)]) (c.next b d))
    (h : b.Linked) (past : List (Broker × Deed)) (hp : ∀ c ∈ b.channels, P past c)
    (deeds : List Deed) : ∀ c ∈ (b.replay deeds).channels, P (past ++ b.journal deeds) c := by
  induction deeds generalizing b past with
  | nil =>
    intro c hc
    rw [journal, List.append_nil]
    exact hp c hc
  | cons d rest ih =>
    have hstep : ∀ c ∈ (b.perform d).channels, P (past ++ [(b, d)]) c := by
      intro c' hc'
      rcases h.mem_next hc' with ⟨c, hc, rfl⟩ | ⟨id, queues, options, ts, ha, rfl, hn, -⟩
      · exact kept past b d c h hc (hp c hc)
      · obtain ⟨m, action⟩ := d
        cases ha
        exact made past b id queues options m ts (makes_next hn)
    have hrest := ih (h.perform d) _ hstep
    rwa [List.append_assoc] at hrest

end Broker

end EventBroker
