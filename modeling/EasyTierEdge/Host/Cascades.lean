import EasyTierEdge.Host.Ending
import EasyTierEdge.Host.Events

/-!
# Cascades of closings

Closing a connection may close others, which may close others in turn. Whatever the state and the
failures, the recursion comes to its end: as many rounds as there are open connections are
enough, more make no difference (`removeConnectionIn_eq`), and so `removeConnection` is the recursion
without a bound (`removeConnection_eq`). Every connection ends at most once on the way, and is not
used after that (`cascades_end`).
-/

namespace EasyTierEdge

namespace Host

variable {HS : Type} {config : ServerConfig} {crates : HostCrates HS}

/-! ## Rounds -/

/-- Two programs that remove connections agree while only so many are open. -/
def Agrees (remove remove' : ConnId → Action HS Unit) (n : ℕ) : Prop :=
  ∀ c s, s.openConnections ≤ n → remove c s = remove' c s

section Agrees

variable {remove remove' : ConnId → Action HS Unit} {n : ℕ} {s : HostState HS} {c : ConnId}

theorem Closes.mono {m : ℕ} (h : Closes crates remove n) (hm : m ≤ n) : Closes crates remove m :=
  fun d a hd hflushing hopen => h d a hd hflushing (hopen.trans hm)

theorem closeBy_congr (hcloses : Closes crates remove n) (hagrees : Agrees remove remove' n)
    (hc : ¬s.pending c) (hopen : s.openConnections ≤ n) :
    closeBy remove c s = closeBy remove' c s := by
  have hfirst : remove c s.tick = remove' c s.tick := hagrees c s.tick hopen
  refine Prog.bind_congr rfl fun _ _ hs => ?_
  cases hs
  split_ifs
  · rfl
  · refine Prog.bind_congr rfl fun _ _ hs => ?_
    cases hs
    split_ifs
    · -- After the close event, no more connections are open.
      refine Prog.bind_congr hfirst fun _ s' hs' => hagrees c s' ?_
      obtain ⟨b, -, hb, hpost⟩ := hcloses c (Stage.idle, s.tick) hc rfl hopen
      rw [hs'] at hb hpost
      obtain rfl : b.2 = s' := hb
      exact hpost.1.undisturbed.openConnections.trans hopen
    · exact hfirst

theorem tellBy_congr (hcloses : Closes crates remove n) (hagrees : Agrees remove remove' n)
    (hopen : s.openConnections ≤ n) (networkName : String) (excludePeerId : Option UInt32)
    (forceFull : Bool) (entry : UInt32 × ConnId) :
    tellBy crates remove networkName excludePeerId forceFull entry s =
      tellBy crates remove' networkName excludePeerId forceFull entry s := by
  refine Prog.bind_congr rfl fun _ _ hs => ?_
  cases hs
  dsimp only
  split_ifs with hentry hready
  · rfl
  · rfl
  · have hc : s.ready entry.2 := by
      by_contra hnot
      exact hready (.inr hnot)
    refine Prog.tryCatch_congr fun e s' hs' => ?_
    obtain ⟨b, hpath, hb, -⟩ := @leads_sendRouteUpdate _ crates .idle _ _ hc rfl forceFull
    rw [hs'] at hb
    obtain rfl : b.2 = s' := hb
    have hundisturbed := undisturbed_of_path hpath
    refine closeBy_congr hcloses hagrees (fun hp => ?_) (hundisturbed.openConnections.trans hopen)
    rcases hundisturbed.ready_or_closed hc with hr | hclosed
    · exact hp.not_ready hr
    · exact hp.not_closed hclosed

theorem broadcastRouteUpdateBy_congr (hcloses : Closes crates remove n)
    (hagrees : Agrees remove remove' n) (hopen : s.openConnections ≤ n) (networkName : String)
    (excludePeerId : Option UInt32) (forceFull : Bool) :
    broadcastRouteUpdateBy crates remove networkName excludePeerId forceFull s =
      broadcastRouteUpdateBy crates remove' networkName excludePeerId forceFull s := by
  refine Prog.bind_congr rfl fun _ _ hs => ?_
  cases hs
  refine Prog.forEach_congr (I := fun s => s.openConnections ≤ n) (fun entry s hopen => ⟨?_, ?_⟩) _
    hopen
  · exact tellBy_congr hcloses hagrees hopen _ _ _ _
  · obtain ⟨b, -, hb, hpost⟩ := leads_tellBy (t := .idle) hcloses rfl hopen networkName excludePeerId
      forceFull entry
    rw [← hb]
    cases hresult : (tellBy crates remove networkName excludePeerId forceFull entry s).1 with
    | ok v =>
      rw [hresult] at hpost
      exact hpost.undisturbed.openConnections.trans hopen
    | error e =>
      rw [hresult] at hpost
      exact hpost.elim

end Agrees

section Rounds

variable {s : HostState HS} {c : ConnId}

/-- A connection that leaves the books is one less that is open. -/
theorem openConnections_leave (hc : ¬s.closed c) :
    (leave crates c s).2.openConnections + 1 = s.openConnections := by
  have hcount := s.tick.openConnections_unregister hc
  have hleave : (leave crates c s).2 = if (s.tick.conn c).phase = .ready then
      (s.tick.unregister c).removePeer crates c (s.ambient 0) else s.tick.unregister c := rfl
  rw [hleave]
  split_ifs
  · exact hcount
  · exact hcount

/-- The body of `removeConnection`, by programs that tell the rest of the network. -/
theorem removeConnection_congr {f g : String → Action HS Unit} {k : ℕ}
    (htell : ∀ networkName s, s.openConnections ≤ k → f networkName s = g networkName s)
    (hopen : s.openConnections ≤ k + 1) :
    (do
      let conn := (← get).conn c
      if conn.phase = .closed then return
      leave crates c
      if conn.phase = .ready then
        f conn.networkName
      let a ← consult
      modify (·.disposeConnection crates c a) : Action HS Unit) s =
    (do
      let conn := (← get).conn c
      if conn.phase = .closed then return
      leave crates c
      if conn.phase = .ready then
        g conn.networkName
      let a ← consult
      modify (·.disposeConnection crates c a) : Action HS Unit) s := by
  refine Prog.bind_congr rfl fun _ _ hs => ?_
  cases hs
  dsimp only
  split_ifs with hclosed hready
  · rfl
  · refine Prog.bind_congr rfl fun _ s' hs' => Prog.bind_congr (htell _ s' ?_) fun _ _ _ => rfl
    have hcount := @openConnections_leave _ crates _ _ hclosed
    rw [hs'] at hcount
    exact Nat.le_of_succ_le_succ (hcount.trans_le hopen)
  · rfl

/-- As many rounds as there are open connections are enough. -/
theorem removeConnectionIn_agrees (crates : HostCrates HS) (k : ℕ) : ∀ n m, k ≤ n → k ≤ m →
    Agrees (removeConnectionIn crates n) (removeConnectionIn crates m) k := by
  induction k with
  | zero =>
    intro n m _ _ c s hopen
    -- No connection is open.
    have hclosed : s.closed c := by
      by_contra hc
      have hcount := s.openConnections_unregister hc
      omega
    have hreturns : ∀ n, removeConnectionIn crates n c s = (.ok (), s) := by
      intro n
      cases n with
      | zero => rfl
      | succ n =>
        refine Eq.trans (Prog.bind_congr (y := get) (g := fun _ => pure ()) rfl fun _ _ hs => ?_) rfl
        cases hs
        exact congrFun (if_pos hclosed) s
    rw [hreturns, hreturns]
  | succ k ih =>
    intro n m hn hm c s hopen
    obtain ⟨n, rfl⟩ : ∃ n', n = n' + 1 := ⟨n - 1, by omega⟩
    obtain ⟨m, rfl⟩ : ∃ m', m = m' + 1 := ⟨m - 1, by omega⟩
    have hn : k ≤ n := Nat.le_of_succ_le_succ hn
    have hm : k ≤ m := Nat.le_of_succ_le_succ hm
    refine removeConnection_congr (f := fun networkName =>
      broadcastRouteUpdateBy crates (removeConnectionIn crates n) networkName none false)
      (g := fun networkName =>
        broadcastRouteUpdateBy crates (removeConnectionIn crates m) networkName none false)
      (fun networkName s hopen => ?_) hopen
    exact broadcastRouteUpdateBy_congr ((leads_removeConnectionIn n).mono hn) (ih n m hn hm) hopen
      networkName none false

/-- More rounds make no difference. -/
theorem removeConnectionIn_eq {rounds : ℕ} (h : s.openConnections ≤ rounds) (c : ConnId) :
    removeConnectionIn crates rounds c s = removeConnection crates c s :=
  removeConnectionIn_agrees crates s.openConnections rounds s.openConnections h le_rfl c s le_rfl

/-- Removing a connection is the recursion without a bound. -/
theorem removeConnection_eq (c : ConnId) (s : HostState HS) :
    removeConnection crates c s = (do
      let conn := (← get).conn c
      if conn.phase = .closed then return
      leave crates c
      if conn.phase = .ready then
        broadcastRouteUpdate crates conn.networkName none false
      let a ← consult
      modify (·.disposeConnection crates c a) : Action HS Unit) s := by
  rw [← removeConnectionIn_eq (Nat.le_succ s.openConnections)]
  refine removeConnection_congr (f := fun networkName => broadcastRouteUpdateBy crates
    (removeConnectionIn crates s.openConnections) networkName none false)
    (g := fun networkName => broadcastRouteUpdate crates networkName none false)
    (fun networkName s' hopen => ?_) (Nat.le_succ s.openConnections)
  exact broadcastRouteUpdateBy_congr (leads_removeConnectionIn s.openConnections)
    (fun d s' hopen => removeConnectionIn_eq hopen d) hopen networkName none false

end Rounds

/-! ## Lives -/

/-- No connection is forgotten. -/
theorem Step.length_le {a b : Stage × HostState HS} (h : Step config crates a b) :
    a.2.conns.length ≤ b.2.conns.length := by
  cases h with
  | quiet hquiet => exact hquiet.undisturbed.length.ge
  | @accepted t s ipKey a _ _ _ haccept =>
    obtain ⟨world, timer, heq⟩ := s.accept_eq haccept
    rw [heq]
    simp [HostState.createConnection]
  | prepared | greeted => exact (List.length_modify ..).ge
  | @completed t s c => exact (List.length_modify ..).ge
  | @abandoned t s c =>
    change _ ≤ (s.unregister c).conns.length
    rw [s.conns_unregister]
    exact (List.length_modify ..).ge
  | @added t s c replaced a _ _ hadd =>
    change _ ≤ (s.addPeer c a).2.conns.length
    unfold HostState.addPeer
    dsimp only
    split <;> exact le_rfl
  | kept | named | opened | received | called | decrypted | answered | forwarded | entered
    | requested | responded | settled | unsettled | swept | expired | retired => exact le_rfl

/-- The life of a connection before. -/
def HostState.life (s : HostState HS) (c : ConnId) : Life :=
  if s.closed c ∧ c < s.conns.length then .gone else .alive

theorem Ended.start (s : HostState HS) : Ended s.life s.trace .idle s := by
  refine ⟨List.nodup_nil, fun c hc => absurd hc List.not_mem_nil, [], (List.append_nil _).symm,
    fun c => ⟨s.life c, rfl, ?_⟩⟩
  have hnot : c ∉ Stage.idle.closing := List.not_mem_nil
  rw [Expects, if_neg hnot, HostState.life]
  split_ifs
  · rfl
  · rfl

/-- What the connections go through from one state to a later one: those that are closed already
    are left alone. The others are used some times; those that are closed then are marked closed,
    removed from the core if they were ready, and disposed, in this order, once each, and not used
    afterwards. -/
def Lives (s s' : HostState HS) : Prop :=
  ∃ new, s'.trace = s.trace ++ new ∧ ∀ c < s.conns.length,
    (s.closed c → s'.closed c ∧ marksOf c new = []) ∧
    (¬s.closed c → ¬s'.closed c → ∃ n, marksOf c new = List.replicate n .used) ∧
    (¬s.closed c → s'.closed c → ∃ n, marksOf c new = List.replicate n .used ++ [.closed, .disposed] ∨
      marksOf c new = List.replicate n .used ++ [.closed, .removed, .disposed])

theorem Ended.finish {s : HostState HS} {b : Stage × HostState HS}
    (h : Ended s.life s.trace b.1 b.2) (hclosing : b.1.closing = [])
    (hlength : s.conns.length ≤ b.2.conns.length) : Lives s b.2 := by
  obtain ⟨new, hnew, hlives⟩ := h.lives
  refine ⟨new, hnew, fun c hc => ?_⟩
  obtain ⟨life, hafter, hlife⟩ := hlives c
  have hnot : c ∉ b.1.closing := by
    rw [hclosing]
    exact List.not_mem_nil
  rw [Expects, if_neg hnot] at hlife
  have hlt : c < b.2.conns.length := hc.trans_le hlength
  refine ⟨fun hclosed => ?_, fun hopen hopen' => ?_, fun hopen hclosed' => ?_⟩
  · rw [HostState.life, if_pos ⟨hclosed, hc⟩] at hafter
    obtain ⟨hmarks, rfl⟩ := Life.eq_nil_of_gone hafter
    refine ⟨?_, hmarks⟩
    by_contra hopen'
    rw [if_neg fun hboth => hopen' hboth.1] at hlife
    cases hlife
  · rw [if_neg fun hboth => hopen' hboth.1] at hlife
    rw [HostState.life, if_neg fun hboth => hopen hboth.1, hlife] at hafter
    obtain ⟨n, tail, htail, hmarks⟩ := Life.shape hafter
    obtain rfl : tail = [] := List.mem_singleton.1 htail
    exact ⟨n, hmarks.trans (List.append_nil _)⟩
  · rw [if_pos ⟨hclosed', hlt⟩] at hlife
    rw [HostState.life, if_neg fun hboth => hopen hboth.1, hlife] at hafter
    obtain ⟨n, tail, htail, hmarks⟩ := Life.shape hafter
    refine ⟨n, ?_⟩
    rcases List.mem_cons.1 htail with rfl | htail
    · exact .inl hmarks
    · obtain rfl := List.mem_singleton.1 htail
      exact .inr hmarks

/-- A program of closings returns, and the connections live as they should. -/
structure CascadeEnds (s : HostState HS) (result : Except String Unit × HostState HS) : Prop where
  returns : result.1 = .ok ()
  lives : Lives s result.2

theorem cascadeEnds_of_leads {s : HostState HS} {x : Action HS Unit}
    {Q : Stage × HostState HS → Prop}
    (h : Leads (Silent config crates) x (fun _ => Q) (fun _ _ => False) (.idle, s))
    (hclosing : ∀ b, Q b → b.1.closing = []) : CascadeEnds s (x s) := by
  obtain ⟨b, hpath, hb, hpost⟩ := h
  cases hresult : (x s).1 with
  | error e =>
    rw [hresult] at hpost
    exact hpost.elim
  | ok v =>
    rw [hresult] at hpost
    refine ⟨hresult, ?_⟩
    rw [← hb]
    obtain ⟨hended, hlength⟩ := path_invariant (P := fun b => Ended s.life s.trace b.1 b.2 ∧
      s.conns.length ≤ b.2.conns.length)
      (fun _ _ hstep h => ⟨h.1.step hstep, h.2.trans hstep.length_le⟩) hpath ⟨.start s, le_rfl⟩
    exact hended.finish (hclosing b hpost) hlength

/-- Whatever the state and the failures, closings come to their end: more rounds make no
    difference, so that the recursion is the one without a bound, and every connection ends at most
    once, and is not used afterwards. So it is in whole runs, too. -/
theorem cascades_end (config : ServerConfig) (s : HostState HS) (c : ConnId) (networkName : String)
    (excludePeerId : Option UInt32) (forceFull : Bool)
    (inputs : List (ServerEvent × (ℕ → Ambient))) :
    (∀ rounds, s.openConnections ≤ rounds →
      removeConnectionIn crates rounds c s = removeConnection crates c s) ∧
    removeConnection crates c s = (do
      let conn := (← get).conn c
      if conn.phase = .closed then return
      leave crates c
      if conn.phase = .ready then
        broadcastRouteUpdate crates conn.networkName none false
      let a ← consult
      modify (·.disposeConnection crates c a) : Action HS Unit) s ∧
    CascadeEnds s (removeConnection crates c s) ∧ CascadeEnds s (close crates c s) ∧
    CascadeEnds s (broadcastRouteUpdate crates networkName excludePeerId forceFull s) ∧
    (removeConnection crates c s).2.closed c ∧ (close crates c s).2.closed c ∧
    ∀ d, ∃ n, ∃ tail ∈ ([[], [.closed, .disposed], [.closed, .removed, .disposed]] : List (List Mark)),
      marksOf d ((server config crates).run (.init config) inputs).trace =
        List.replicate n .used ++ tail := by
  have hfailed := (finished_idle s).failed c
  have hremove := @leads_removeConnection_failed _ config crates _ _ _ hfailed
  have hclose := @leads_close_failed _ config crates _ _ _ hfailed
  have hbroadcast := @leads_broadcastRouteUpdate _ crates .idle s rfl
    networkName excludePeerId forceFull
  -- A program that closes the connection leaves it closed.
  have hclosed : ∀ {x : Action HS Unit}, Leads (Silent config crates) x
      (fun _ b => Finished b ∧ b.2.closed c) (fun _ _ => False) (.idle, s) → (x s).2.closed c := by
    rintro x ⟨b, -, hb, hpost⟩
    rw [← hb]
    cases hresult : (x s).1 with
    | error e =>
      rw [hresult] at hpost
      exact hpost.elim
    | ok v =>
      rw [hresult] at hpost
      exact hpost.2
  refine ⟨fun rounds h => removeConnectionIn_eq h c, removeConnection_eq c s,
    cascadeEnds_of_leads hremove fun b hb => hb.1.closing,
    cascadeEnds_of_leads hclose fun b hb => hb.1.closing,
    cascadeEnds_of_leads (leads_silent hbroadcast : Leads (Silent config crates) _ _ _ _) fun b hb => hb.closing,
    hclosed hremove, hclosed hclose, fun d => ?_⟩
  have hinit : Ended (fun _ => .alive) [] .idle (HostState.init config : HostState HS) := by
    refine ⟨List.nodup_nil, fun d hd => absurd hd List.not_mem_nil, [], rfl, fun d => ⟨.alive, rfl, ?_⟩⟩
    have hnot : d ∉ Stage.idle.closing := List.not_mem_nil
    rw [Expects, if_neg hnot, if_neg fun hboth => absurd hboth.2 (Nat.not_lt_zero d)]
  obtain ⟨-, -, hended⟩ := Reachable.of_step config crates
    (P := fun a => Ended (fun _ => .alive) [] a.1 a.2) hinit (fun _ _ hstep _ h => h.step hstep)
    (s := (server config crates).run (.init config) inputs) ⟨inputs, rfl⟩
  obtain ⟨new, hnew, hlives⟩ := hended.lives
  obtain ⟨life, hafter, hlife⟩ := hlives d
  obtain ⟨n, tail, htail, hmarks⟩ := Life.shape hafter
  refine ⟨n, tail, ?_, ?_⟩
  · have hnot : d ∉ Stage.idle.closing := List.not_mem_nil
    rw [Expects, if_neg hnot] at hlife
    split_ifs at hlife with hgone
    · obtain rfl := hlife
      exact List.mem_cons_of_mem _ htail
    · obtain rfl := hlife
      obtain rfl := List.mem_singleton.1 htail
      exact List.mem_cons_self
  · rw [hnew, List.nil_append]
    exact hmarks

end Host

end EasyTierEdge
