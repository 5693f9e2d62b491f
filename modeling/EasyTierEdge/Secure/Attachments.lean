import EasyTierEdge.Secure.Store

/-!
# The accounting of attachments

A stored session counts the live connections attached to it, and the idle `retain`
only drops sessions without any. So the session of a connection stays, under its
root key, for as long as the connection lives (`run_sessionKey`), and no method
ever finds it gone (`Effect.error`). `attachment_accounting` puts this together.
-/

namespace EasyTierEdge

section Accounting

variable {HS : Type} {c : Crates HS} {w : World HS} {h : Handle} {p p' : SecurePeer HS} {sessions' : SessionStore}

theorem StoredSession.rootKey_of_frame {s s' : StoredSession} {ms : UInt64}
    (hframe : s' = s ∨ ∃ t, s' = s.save t ms) : s'.rootKey = s.rootKey := by
  rcases hframe with rfl | ⟨t, rfl⟩ <;> rfl

/-- A connection keeps its session and its root key. -/
theorem Effect.sessionKey_rootKey {call : Call} {out : Output}
    (heff : Effect c p w.sessions call out p' sessions') (hp : p.Consistent c w.sessions)
    {key : SessionKey} (hkey : p.sessionKey = some key) :
    p'.sessionKey = some key ∧ p'.rootKey = p.rootKey := by
  obtain ⟨s, hs, hroot⟩ := hp.stored key hkey
  cases heff with
  | refused => exact ⟨hkey, rfl⟩
  | heard => exact ⟨hkey, rfl⟩
  | unselected hm => exact ⟨hkey, rfl⟩
  | unsent hm => exact ⟨hkey, rfl⟩
  | sent hm => simp [hm.fresh] at hkey
  | lost => exact ⟨hkey, rfl⟩
  | confirmed => exact ⟨hkey, rfl⟩
  | encrypted _ hkey' hs' =>
    obtain rfl := Option.some.inj (hkey.symm.trans hkey')
    obtain rfl := Option.some.inj (hs.symm.trans hs')
    refine ⟨hkey, ?_⟩
    rw [hroot]
    exact congrArg some (StoredSession.rootKey_of_frame (StoredSession.encrypt_frame c _ _ _ _ _))
  | decrypted _ hkey' hs' =>
    obtain rfl := Option.some.inj (hkey.symm.trans hkey')
    obtain rfl := Option.some.inj (hs.symm.trans hs')
    refine ⟨hkey, ?_⟩
    rw [hroot]
    exact congrArg some (StoredSession.rootKey_of_frame (StoredSession.decrypt_frame c _ _ _ _ _ _))

/-- A connection that is not dropped keeps its session and its root key. -/
theorem World.step_sessionKey (hw : w.Consistent c) (hp : w.peers.lookup h = some p)
    {key : SessionKey} (hkey : p.sessionKey = some key) (op : Op) (hop : ∀ ms, op ≠ .drop h ms) :
    ∃ p', (w.step c op).1.peers.lookup h = some p' ∧ p'.sessionKey = some key ∧
      p'.rootKey = p.rootKey := by
  have hsame : ∀ h' (q : SecurePeer HS), h ≠ h' → (w.peers.insert h' q).lookup h = some p :=
    fun h' q hne => by rw [Finmap.lookup_insert_of_ne _ hne, hp]
  cases op with
  | new h' localPrivate localPublic serverPeerId ms =>
    simp only [World.step]
    cases hp' : w.peers.lookup h' with
    | some _ => exact ⟨p, hp, hkey, rfl⟩
    | none =>
      cases SecurePeer.new c localPrivate localPublic serverPeerId ms with
      | error e => exact ⟨p, hp, hkey, rfl⟩
      | ok q => exact ⟨p, hsame h' q (by rintro rfl; simp [hp] at hp'), hkey, rfl⟩
  | call h' call =>
    simp only [World.step]
    cases hp' : w.peers.lookup h' with
    | none => exact ⟨p, hp, hkey, rfl⟩
    | some q =>
      by_cases hne : h = h'
      · subst hne
        obtain rfl := Option.some.inj (hp.symm.trans hp')
        exact ⟨_, Finmap.lookup_insert _,
          (call_cases hw hp call).sessionKey_rootKey (hw.peers h p hp) hkey⟩
      · exact ⟨p, hsame h' _ hne, hkey, rfl⟩
  | drop h' ms =>
    simp only [World.step]
    have hne : h ≠ h' := fun heq => hop ms (by rw [heq])
    cases hp' : w.peers.lookup h' with
    | none => exact ⟨p, hp, hkey, rfl⟩
    | some q => exact ⟨p, by rw [Finmap.lookup_erase_ne hne, hp], hkey, rfl⟩

/-- The session of a connection stays, with its root key, until the connection is
    dropped. -/
theorem World.run_sessionKey (hw : w.Consistent c) (hp : w.peers.lookup h = some p)
    {key : SessionKey} (hkey : p.sessionKey = some key) (ops : List Op)
    (hops : ∀ op ∈ ops, ∀ ms, op ≠ .drop h ms) :
    ∃ s, ((store c).run w ops).sessions.lookup key = some s ∧ p.rootKey = some s.rootKey := by
  induction ops generalizing w p with
  | nil => exact (hw.peers h p hp).stored key hkey
  | cons op ops ih =>
    rw [List.forall_mem_cons] at hops
    obtain ⟨p', hp', hkey', hroot⟩ := World.step_sessionKey hw hp hkey _ hops.1
    obtain ⟨s, hs, hs'⟩ := ih (hw.step op) hp' hkey' hops.2
    exact ⟨s, hs, hroot ▸ hs'⟩

/-- No method finds the session of its connection gone. -/
theorem Effect.error {call : Call} {out : Output} {sessions : SessionStore}
    (heff : Effect c p sessions call out p' sessions') {e : SecureError}
    (he : out.error? = some e) : e.disappeared = false := by
  cases heff with
  | refused herr hd => rw [herr] at he; cases he; exact hd
  | heard => cases he
  | unselected _ _ hd => cases he; exact hd
  | unsent _ _ _ hd => cases he; exact hd
  | sent => cases he
  | lost hd => cases he; exact hd
  | confirmed => cases he
  | encrypted => exact StoredSession.encrypt_errorsIn c _ _ _ _ _ e (Output.eq_error_of_frame he)
  | decrypted => exact StoredSession.decrypt_errorsIn c _ _ _ _ _ _ e (Output.eq_error_of_frame he)

/-- In every world that the store reaches: every session counts its attached
    connections; there are at most `maxStoredSessions` sessions; the session of an
    attached connection stays, with its root key, until the connection is dropped;
    and no method of a connection finds its session gone. -/
theorem attachment_accounting (c : Crates HS) (ops : List Op) :
    let w := (store c).run (store c).init ops
    (∀ key s, w.sessions.lookup key = some s → s.attachments.toNat =
      w.peers.count fun _ p => p.sessionAttached && p.sessionKey == some key) ∧
    w.sessions.size ≤ maxStoredSessions ∧
    (∀ h p key, w.peers.lookup h = some p → p.sessionAttached → p.sessionKey = some key →
      ∃ s, w.sessions.lookup key = some s ∧
        ∀ later : List Op, (∀ op ∈ later, ∀ ms, op ≠ .drop h ms) →
          ∃ s', ((store c).run w later).sessions.lookup key = some s' ∧ s'.rootKey = s.rootKey) ∧
    ∀ h call e, (w.step c (.call h call)).2.error? = some e → e.disappeared = false := by
  intro w
  have hw : w.Consistent c := consistent_of_reachable ⟨ops, rfl⟩
  refine ⟨hw.attachments, hw.size, fun h p key hp _ hkey => ?_, fun h call e he => ?_⟩
  · obtain ⟨s, hs, hroot⟩ := (hw.peers h p hp).stored key hkey
    refine ⟨s, hs, fun later hlater => ?_⟩
    obtain ⟨s', hs', hroot'⟩ := World.run_sessionKey hw hp hkey later hlater
    rw [hroot, Option.some.injEq] at hroot'
    exact ⟨s', hs', hroot'.symm⟩
  · simp only [World.step] at he
    cases hp : w.peers.lookup h with
    | none => simp [hp, Output.error?] at he
    | some p =>
      rw [hp] at he
      exact (call_cases hw hp call).error he

end Accounting

end EasyTierEdge
