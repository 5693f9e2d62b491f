import EasyTierEdge.Secure.Tracking

/-!
# Agreement on the root key

A client that joins a session claims the generation a message 2 announced to it, and
keeps the root key it was announced with. The server compares generations only, and
every session it creates has generation `1`. So client and server agree on the root
key exactly when the session was not created anew, after an idle eviction, since the
announcement: `join_agrees_iff`. A client of the evicted session is let in with
another root key (`stale_client_joins`).
-/

namespace EasyTierEdge

variable {HS : Type}

/-- The generation and the root key that a message 2 announces for a session. -/
def announcement (e : StoreEvent HS) : Option (SessionKey × UInt32 × Key32) :=
  match e.output with
  | .frame (.ok _) => (selection e).bind fun (key, sel) =>
      sel.rootKeyForPeer.map fun r => (key, sel.generation, r)
  | _ => none

/-- Whether a message 2 creates a session under `key`. -/
def creates (key : SessionKey) (e : StoreEvent HS) : Bool :=
  (selection e).any fun (key', sel) => key' == key && sel.action == .create

/-- Whether a message 2 announces `generation` for the session under `key`. -/
def announces (key : SessionKey) (generation : UInt32) (e : StoreEvent HS) : Bool :=
  (announcement e).any fun (key', generation', _) => key' == key && generation' == generation

/-- No session under `key` was created after `generation` was announced for it. -/
def NotRecreated (key : SessionKey) (generation : UInt32) (tr : List (StoreEvent HS)) : Prop :=
  Along (fun before e => creates key e = true → before.any (announces key generation) = false) tr

instance (key : SessionKey) (generation : UInt32) (tr : List (StoreEvent HS)) :
    Decidable (NotRecreated key generation tr) :=
  inferInstanceAs (Decidable (Along _ tr))

/-- The session under `key` was created in `tr`, with the root key `r`, and announced
    with it ever since. -/
def CreatedWith (key : SessionKey) (r : Key32) (tr : List (StoreEvent HS)) : Prop :=
  ∃ before e after, tr = before ++ e :: after ∧ creates key e ∧ createdKey e = some r ∧
    (∀ e' ∈ after, creates key e' = false) ∧
    ∀ e' ∈ e :: after, ∀ g r', announcement e' = some (key, g, r') → r' = r

section Agreement

variable {c : Crates HS} {tr : List (StoreEvent HS)} {w : World HS} {op : Op} {key : SessionKey}

theorem announcement_eq_some {e : StoreEvent HS} {g : UInt32} {r : Key32}
    (h : announcement e = some (key, g, r)) :
    ∃ sel, selection e = some (key, sel) ∧ sel.generation = g ∧ sel.rootKeyForPeer = some r := by
  unfold announcement at h
  split at h
  · simp only [Option.bind_eq_some_iff, Option.map_eq_some_iff, Prod.exists] at h
    obtain ⟨key', sel, hsel, r', hr', heq⟩ := h
    obtain ⟨rfl, rfl, rfl⟩ : key' = key ∧ sel.generation = g ∧ r' = r := by simpa using heq
    exact ⟨sel, hsel, rfl, hr'⟩
  · cases h

theorem announces_iff {e : StoreEvent HS} {g : UInt32} :
    announces key g e = true ↔ ∃ r, announcement e = some (key, g, r) := by
  unfold announces
  rw [Option.any_eq_true]
  constructor
  · rintro ⟨⟨key', g', r⟩, h, heq⟩
    obtain ⟨rfl, rfl⟩ : key' = key ∧ g' = g := by simpa using heq
    exact ⟨r, h⟩
  · rintro ⟨r, h⟩
    exact ⟨_, h, by simp⟩

/-- An announced root key is that of the selected session. -/
theorem Selected.rootKeyForPeer {sessions : SessionStore} {generation : Option UInt32}
    {algorithm : String} {random : Except String Key32} {now : UInt64} {sel : SessionSelection}
    {s : StoredSession} (h : Selected sessions key generation algorithm random now sel s) :
    sel.sessionRootKey = s.rootKey ∧ ∀ r, sel.rootKeyForPeer = some r → r = s.rootKey := by
  cases h with
  | join => exact ⟨rfl, fun r hr => by cases hr⟩
  | sync => exact ⟨rfl, fun r hr => (Option.some.inj hr).symm⟩
  | create => exact ⟨rfl, fun r hr => (Option.some.inj hr).symm⟩

/-- The session selected by message 2 is the one stored after the step. -/
theorem selected_stored {sel : SessionSelection}
    (hsel : selection ((store c).event w op) = some (key, sel)) :
    ∃ s', (w.step c op).1.sessions.lookup key = some s' ∧ s'.rootKey = sel.sessionRootKey ∧
      ∀ r, sel.rootKeyForPeer = some r → r = s'.rootKey := by
  obtain ⟨h, p, networkSecret, draws, m, s, hop, hp, hm, rfl, hselects⟩ := selects_of_selection hsel
  obtain rfl : op = .call h (.buildMsg2 networkSecret draws) := hop
  replace hp : w.peers.lookup h = some p := hp
  replace hselects : p.Selects w.sessions draws m sel s := hselects
  obtain ⟨s', hstored, hs'⟩ := SecurePeer.buildMsg2_selects (c := c) hm hselects
  have hroot' : s'.rootKey = s.rootKey := by
    rcases hs' with rfl | hattach
    · rfl
    · rw [StoredSession.eq_of_attach hattach]
  obtain ⟨hroot, hannounced⟩ := hselects.rootKeyForPeer
  refine ⟨s', ?_, by rw [hroot', hroot], by rwa [hroot']⟩
  simp only [World.step, hp, SecurePeer.call]
  rw [hstored, SecurePeer.selectedSessions, Finmap.lookup_insert]

theorem creates_eq_true {e : StoreEvent HS} (h : creates key e = true) :
    ∃ sel, selection e = some (key, sel) ∧ createdKey e = some sel.sessionRootKey := by
  unfold creates at h
  cases hsel : selection e with
  | none => simp [hsel] at h
  | some x =>
    obtain ⟨key', sel⟩ := x
    obtain ⟨rfl, haction⟩ : key' = key ∧ sel.action = .create := by simpa [hsel] using h
    exact ⟨sel, rfl, by simp [createdKey, hsel, haction]⟩

theorem creates_of_createdKey {e : StoreEvent HS} {sel : SessionSelection} {r : Key32}
    (hsel : selection e = some (key, sel)) (hr : createdKey e = some r) : creates key e = true := by
  simp only [createdKey, hsel, Option.bind_some] at hr
  split_ifs at hr with haction
  simp [creates, hsel, haction]

/-- A step that creates no old root key keeps the stored sessions announced with their
    own root keys. -/
theorem CreatedWith.step (hw : w.Consistent c) (hroots : RootKeys tr w)
    (hi : ∀ key s, w.sessions.lookup key = some s → CreatedWith key s.rootKey tr)
    (hfresh : FreshKey tr ((store c).event w op)) {s' : StoredSession}
    (hs' : (w.step c op).1.sessions.lookup key = some s') :
    CreatedWith key s'.rootKey (tr ++ [(store c).event w op]) := by
  have hannounced : ∀ g r', announcement ((store c).event w op) = some (key, g, r') →
      r' = s'.rootKey := by
    intro g r' h
    obtain ⟨sel, hsel, -, hr'⟩ := announcement_eq_some h
    obtain ⟨s₁, hs₁, -, hroot₁⟩ := selected_stored hsel
    obtain rfl := Option.some.inj (hs'.symm.trans hs₁)
    exact hroot₁ r' hr'
  rcases (became hw op hs').rootKey with ⟨s, hs, hroot⟩ | ⟨hcreated, sel, hsel⟩
  · obtain ⟨before, e, after, rfl, hcreates, hkey, hafter, hsince⟩ := hi key s hs
    refine ⟨before, e, after ++ [(store c).event w op], by simp, hcreates, hroot ▸ hkey, ?_, ?_⟩
    · intro e' he'
      rcases List.mem_append.1 he' with he' | he'
      · exact hafter e' he'
      · obtain rfl := List.mem_singleton.1 he'
        by_contra hne
        obtain ⟨sel, hsel, hcreated⟩ := creates_eq_true (Bool.not_eq_false _ ▸ hne)
        obtain ⟨s₁, hs₁, hroot₁, -⟩ := selected_stored hsel
        obtain rfl := Option.some.inj (hs'.symm.trans hs₁)
        rw [← hroot₁, ← hroot] at hcreated
        exact hfresh _ hcreated (hroots.created key s hs)
    · intro e' he' g r' h
      rw [← List.cons_append] at he'
      rcases List.mem_append.1 he' with he' | he'
      · rw [← hroot]
        exact hsince e' he' g r' h
      · obtain rfl := List.mem_singleton.1 he'
        exact hannounced g r' h
  · refine ⟨tr, _, [], rfl, creates_of_createdKey hsel hcreated, hcreated, by simp, ?_⟩
    intro e' he' g r' h
    obtain rfl := List.mem_singleton.1 he'
    exact hannounced g r' h

/-- Along a run with fresh root keys, the stored sessions are announced with their own
    root keys. -/
theorem createdWith_of_run (js : List Op)
    (hfresh : (((store c).history (store c).init js).filterMap createdKey).Nodup) :
    let tr := (store c).history (store c).init js
    let w := (store c).run (store c).init js
    w.Consistent c ∧ RootKeys tr w ∧
      ∀ key s, w.sessions.lookup key = some s → CreatedWith key s.rootKey tr := by
  refine Machine.history_invariant (m := store c) (P := fun tr w => w.Consistent c ∧ RootKeys tr w ∧
    ∀ key s, w.sessions.lookup key = some s → CreatedWith key s.rootKey tr) ?_ ?_ js
    (Along.of_nodup hfresh)
  · exact ⟨consistent_of_reachable (Machine.reachable_init _), ⟨by simp [store], by simp [store]⟩,
      by simp [store]⟩
  · rintro tr w op ⟨hw, hroots, hi⟩ hfresh
    exact ⟨hw.step op, hroots.step hw hfresh, fun key s' hs' => .step hw hroots hi hfresh hs'⟩

/-- A root key that is announced has been created. -/
theorem createdKey_of_announcement {js : List Op}
    (hfresh : (((store c).history (store c).init js).filterMap createdKey).Nodup)
    {before after : List (StoreEvent HS)} {e : StoreEvent HS}
    (hsplit : (store c).history (store c).init js = before ++ e :: after) {g : UInt32} {r : Key32}
    (he : announcement e = some (key, g, r)) : r ∈ (before ++ [e]).filterMap createdKey := by
  obtain ⟨ks, op, ls, rfl, rfl, rfl⟩ := Machine.history_split hsplit
  obtain ⟨sel, hsel, -, hr⟩ := announcement_eq_some he
  obtain ⟨s', hs', -, hroot⟩ := selected_stored hsel
  rw [← Machine.history_snoc]
  have hupto : (((store c).history (store c).init (ks ++ [op])).filterMap createdKey).Nodup := by
    rw [show ks ++ op :: ls = (ks ++ [op]) ++ ls by simp, Machine.history_append,
      List.filterMap_append] at hfresh
    exact hfresh.of_append_left
  have hroots := (createdWith_of_run (ks ++ [op]) hupto).2.1
  rw [Machine.run_snoc] at hroots
  rw [hroot r hr]
  exact hroots.created key s' hs'

/-- A message 2 that selects `Join` finds its session stored. -/
theorem stored_of_join {sel : SessionSelection}
    (hsel : selection ((store c).event w op) = some (key, sel)) (hjoin : sel.action = .join) :
    ∃ s, w.sessions.lookup key = some s ∧ sel.sessionRootKey = s.rootKey := by
  obtain ⟨h, p, networkSecret, draws, m, s, -, -, -, rfl, hselects⟩ := selects_of_selection hsel
  cases hselects with
  | join hs => exact ⟨_, hs, rfl⟩
  | sync => cases hjoin
  | create => cases hjoin

/-- Joining a session means agreement on its root key, in every run with fresh root
    keys, exactly when it was not created anew since its generation was announced:
    when a message 2 selects `Join`, all earlier ones that announced this generation
    for the session carried the root key that the server uses now, if and only if no
    message 2 created the session after one of them. -/
theorem join_agrees_iff (c : Crates HS) (js : List Op) (op : Op) (key : SessionKey)
    (sel : SessionSelection)
    (hfresh : (((store c).history (store c).init js).filterMap createdKey).Nodup)
    (hsel : selection ((store c).event ((store c).run (store c).init js) op) = some (key, sel))
    (hjoin : sel.action = .join) :
    (∀ e ∈ (store c).history (store c).init js, ∀ r,
      announcement e = some (key, sel.generation, r) → r = sel.sessionRootKey) ↔
    NotRecreated key sel.generation ((store c).history (store c).init js) := by
  obtain ⟨-, -, hcreated⟩ := createdWith_of_run js hfresh
  obtain ⟨s, hs, hroot⟩ := stored_of_join hsel hjoin
  obtain ⟨before, e, after, htr, hcreates, hkey, hafter, hsince⟩ := hcreated key s hs
  rw [hroot]
  constructor
  · intro hagree before' e' after' htr' hcreates'
    by_contra hany
    rw [Bool.not_eq_false, List.any_eq_true] at hany
    obtain ⟨e₁, he₁, hannounces⟩ := hany
    obtain ⟨r, hr⟩ := announces_iff.1 hannounces
    obtain ⟨b, a, rfl⟩ := List.append_of_mem he₁
    have hsame : r = s.rootKey := hagree e₁ (by simp [htr']) r hr
    rw [List.append_assoc, List.cons_append] at htr'
    have hold := createdKey_of_announcement hfresh htr' hr
    -- The announcement comes before the creation of the stored session, whose root
    -- key was fresh; or the session was created once more.
    rcases List.append_eq_append_iff.1 (htr'.symm.trans htr) with ⟨mid, rfl, hmid⟩ | ⟨mid, rfl, hmid⟩
    · cases mid with
      | nil =>
        obtain ⟨rfl, rfl⟩ : e₁ = e ∧ a ++ e' :: after' = after := by simpa using hmid
        simp [hafter e' (by simp)] at hcreates'
      | cons x mid =>
        obtain ⟨rfl, -⟩ : e₁ = x ∧ a ++ e' :: after' = mid ++ e :: after := by simpa using hmid
        refine Along.of_nodup hfresh _ e after htr _ hkey ?_
        rw [← hsame, show b ++ e₁ :: mid = (b ++ [e₁]) ++ mid by simp, List.filterMap_append]
        exact List.mem_append_left _ hold
    · cases mid with
      | nil =>
        obtain ⟨rfl, rfl⟩ : e = e₁ ∧ after = a ++ e' :: after' := by simpa using hmid
        simp [hafter e' (by simp)] at hcreates'
      | cons x mid =>
        obtain ⟨rfl, rfl⟩ : e = x ∧ after = mid ++ e₁ :: (a ++ e' :: after') := by simpa using hmid
        simp [hafter e' (by simp)] at hcreates'
  · intro hnot e' he' r hr
    rw [htr] at he'
    rcases List.mem_append.1 he' with he' | he'
    · -- An announcement before the session was created is excluded.
      have hany : before.any (announces key sel.generation) = true :=
        List.any_eq_true.2 ⟨e', he', announces_iff.2 ⟨r, hr⟩⟩
      rw [hnot before e after htr hcreates] at hany
      cases hany
    · exact hsince e' he' sel.generation r hr

end Agreement

open Sample

/-- A client that reconnects while its session is stored, and claims its generation,
    agrees on the root key. -/
theorem join_agrees_reconnecting :
    let js := connect 0 0 1 1000 ++ [.drop 0 2000, .new 1 keyText keyText server 3000,
      .call 1 (.readMsg1 (msg1 1))]
    NotRecreated sessionKey 1 (history js) ∧
      ∀ e ∈ history js, ∀ r, announcement e = some (sessionKey, 1, r) → r = Vector.replicate 32 1 :=
  ⟨by decide +kernel,
    (join_agrees_iff Crates.transparent _ (.call 1 (.buildMsg2 secret (draws 2 3000))) sessionKey
      ⟨.join, 1, none, Vector.replicate 32 1, 0⟩ (by decide +kernel) (by decide +kernel) rfl).2
      (by decide +kernel)⟩

/-- A client of a session that was evicted and created anew joins it with the old
    generation: the first message 2 announced another root key. -/
theorem stale_client_joins :
    let js := hello 0 0 1 1000 ++ [.drop 0 2000] ++ hello 1 0 2 70000 ++
      [.new 2 keyText keyText server 70000, .call 2 (.readMsg1 (msg1 1))]
    let op := Op.call 2 (.buildMsg2 secret (draws 3 70000))
    ((history (js ++ [op])).filterMap createdKey).Nodup ∧
    selection ((store Crates.transparent).event ((store Crates.transparent).run
      (store Crates.transparent).init js) op) =
      some (sessionKey, ⟨.join, 1, none, Vector.replicate 32 2, 0⟩) ∧
    ∃ e ∈ history js, announcement e = some (sessionKey, 1, Vector.replicate 32 1) := by
  decide +kernel

end EasyTierEdge
