import EasyTierEdge.Host.Events
import EasyTierEdge.Host.Quota

/-!
# Runs of the server

What holds between any two events of a run: the counters of unfinished handshakes are right and
within their bounds (`quota_kept`), and a frame that an event delivers comes from a ready connection
and goes to the one that is registered for it, in the same network (`forwarding_isolated`).
-/

namespace EasyTierEdge

namespace Host

variable {HS : Type} {config : ServerConfig} {crates : HostCrates HS}

/-- The quota holds between any two events of a run. -/
theorem quota_kept (inputs : List (ServerEvent × (ℕ → Ambient))) :
    Quota config ((server config crates).run (.init config) inputs) :=
  (Reachable.of_step config crates (P := fun a => Quota config a.2) (Quota.init config)
    (fun _ _ hstep _ h => h.step hstep) ⟨inputs, rfl⟩).2.2

/-! ## Forwarding -/

theorem readU32_lt (bytes : Bytes) (offset : ℕ) : readU32 bytes offset < 2 ^ 32 :=
  UInt32.toNat_lt _

theorem parsePacket_toPeerId_lt {frame payload : Bytes} {header : PacketHeader}
    (h : parsePacket frame = .ok (header, payload)) : header.toPeerId < 2 ^ 32 := by
  unfold parsePacket at h
  split_ifs at h
  · cases h
  · dsimp only at h
    split_ifs at h
    · cases h
    · obtain ⟨rfl, -⟩ := Prod.mk.inj (Except.ok.inj h)
      exact readU32_lt frame 4
    · cases h
    · obtain ⟨rfl, -⟩ := Prod.mk.inj (Except.ok.inj h)
      exact readU32_lt frame 4

/-- The frame of `c` for the peer `toPeerId` was delivered to `target`, as `forwarded`. -/
structure Forwarded (config : ServerConfig) (crates : HostCrates HS) (s : HostState HS)
    (c : ConnId) (frame : Bytes) (toPeerId : ℕ) (target : ConnId) (forwarded : Bytes) : Prop where
  notRelay : toPeerId ≠ serverPeerId.toNat
  ready : s.ready c
  /-- Both connections have proved the network they share. -/
  admitted : Admitted config crates (s.callsOn c) (s.framesOf c) (s.conn c)
  targetReady : s.ready target
  targetAdmitted : Admitted config crates (s.callsOn target) (s.framesOf target) (s.conn target)
  network : (s.conn target).networkName = (s.conn c).networkName
  registered : s.rooms.get (s.conn c).networkName (UInt32.ofNat toPeerId) = some target
  peerId : (s.conn target).peerId.toNat = toPeerId
  /-- The hop counter is within its limit, and is raised by one. -/
  hops : frame.getD 10 0 ≤ maxForwardHops
  counter : (forwarded.getD 10 0).toNat = (frame.getD 10 0).toNat + 1
  length : forwarded.length = frame.length
  bytes : ∀ i ≠ 10, forwarded[i]? = frame[i]?
  relayData : config.disableRelayData = true → EasyTierEdge.isRelayDataPacket forwarded = .ok false

/-- Whatever happens after a run, at most one frame is delivered: the one that was received, but for
    its hop counter, to the connection registered for it in the network of its sender. -/
theorem forwarding_isolated (inputs : List (ServerEvent × (ℕ → Ambient)))
    (input : ServerEvent × (ℕ → Ambient)) :
    let s : HostState HS := (server config crates).run (.init config) inputs
    let s' := ((server config crates).step s input).1
    s'.deliveries = s.deliveries ∨ ∃ c frame header payload target forwarded,
      input.1 = .message c (.binary frame) ∧ parsePacket frame = .ok (header, payload) ∧
      Forwarded config crates s c frame header.toPeerId target forwarded ∧
      s'.deliveries = s.deliveries ++ [(c, target, forwarded)] := by
  intro s s'
  obtain ⟨hregistry, hhandshakes, -⟩ := Reachable.of_step config crates
    (P := fun _ => True) trivial (fun _ _ _ _ _ => trivial) (s := s) ⟨inputs, rfl⟩
  obtain ⟨-, -, hdelivers⟩ := path_of_event hregistry hhandshakes input
  rcases hdelivers with heq | ⟨c, frame, header, payload, target, forwarded, he, hpacket, hto, hc, hf,
    heq⟩
  · exact .inl heq
  · refine .inr ⟨c, frame, header, payload, target, forwarded, he, hpacket, ?_, heq⟩
    have hregistered : s.registered ((s.conn c).networkName, UInt32.ofNat header.toPeerId) =
      some target := hf.registered
    obtain ⟨hname, hpeer⟩ := Prod.mk.inj (hregistry.entry _ _ hregistered).1
    have hsum : (frame.getD 10 0 + 1).toNat = (frame.getD 10 0).toNat + 1 := by
      have hle : (frame.getD 10 0).toNat ≤ 7 := hf.counter
      rw [UInt8.toNat_add]
      change ((frame.getD 10 0).toNat + 1) % 256 = _
      omega
    have hlength : 10 < frame.length := by
      have hshort : ¬frame.length < headerSize := by
        intro hlt
        rw [parsePacket, if_pos hlt] at hpacket
        cases hpacket
      exact lt_of_lt_of_le (by decide) (Nat.not_lt.1 hshort)
    constructor
    · exact hto
    · exact hc
    · exact (hhandshakes.authentic c).admitted hc
    · exact hf.ready
    · exact (hhandshakes.authentic target).admitted hf.ready
    · exact hname
    · exact hf.registered
    · rw [hpeer, UInt32.toNat_ofNat_of_lt' (parsePacket_toPeerId_lt hpacket)]
    · exact hf.counter
    · rw [hf.bytes, List.getD_eq_getElem?_getD, List.getElem?_set_self hlength]
      exact hsum
    · rw [hf.bytes, List.length_set]
    · intro i hi
      rw [hf.bytes, List.getElem?_set_ne (Ne.symm hi)]
    · exact hf.relayData

end Host

end EasyTierEdge
