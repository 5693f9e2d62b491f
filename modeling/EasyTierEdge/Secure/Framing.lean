import EasyTierEdge.Host.Packet
import EasyTierEdge.Legacy
import EasyTierEdge.Secure.Honest
import EasyTierEdge.Secure.History

/-!
# Encryption and framing

An encrypted frame has the header of the clear one, with the encrypted flag set, and its
payload is longer by the AEAD tail. Its length field is not rewritten: the flag tells a parser
of the tail. So encrypting a frame that is well formed gives one that the module and the host
both accept (`Encryption`), and decrypting one that the host accepts gives one that it accepts
(`Decryption`), whichever of the two ciphers does it.

The AEAD ciphers are assumed to keep the length of what they encrypt and decrypt
(`Crates.KeepsLength`), to open what they sealed, and to seal any payload of a frame that the
module can hold (`Crates.SealsFrames`).
-/

namespace EasyTierEdge

variable {HS : Type}

/-- The ciphers keep the length. -/
structure Crates.KeepsLength (c : Crates HS) : Prop where
  sealed : ∀ cipher key nonce plaintext ciphertext tag,
    c.aeadSeal cipher key nonce plaintext = some (ciphertext, tag) →
      ciphertext.length = plaintext.length
  opened : ∀ cipher key nonce ciphertext tag plaintext,
    c.aeadOpen cipher key nonce ciphertext tag = some plaintext →
      plaintext.length = ciphertext.length

/-- The length of the keys of a cipher. -/
def Cipher.keyLength : Cipher → ℕ
  | .aesGcm => 16
  | .aes256Gcm | .chacha20 => 32

/-- Every payload of a frame that the module can hold is sealed. -/
def Crates.SealsFrames (c : Crates HS) : Prop :=
  ∀ cipher key nonce plaintext, key.length = cipher.keyLength → nonce.length = 12 →
    plaintext.length < 2 ^ 31 → (c.aeadSeal cipher key nonce plaintext).isSome

theorem Cipher.length_keyBytes (cipher : Cipher) (key : Key32) :
    (cipher.keyBytes key).length = cipher.keyLength := by
  cases cipher <;> simp [Cipher.keyBytes, Cipher.keyLength]

/-- The header with the encrypted flag. -/
def PacketHeader.setEncrypted (header : PacketHeader) : PacketHeader :=
  { header with flags := header.flags ||| encryptedFlag }

/-- The header without the encrypted flag. -/
def PacketHeader.clearEncrypted (header : PacketHeader) : PacketHeader :=
  { header with flags := header.flags &&& ~~~encryptedFlag }

/-- The same for a header of the host. -/
def Host.PacketHeader.clearEncrypted (header : Host.PacketHeader) : Host.PacketHeader :=
  { header with flags := header.flags &&& 0xfe }

/-- A clear frame and one it is encrypted to: both parsers accept it, with the same header but
    for the flag, and it is longer by the tail. -/
structure Encryption (header : PacketHeader) (frame encrypted : Bytes) : Prop where
  wasm : parsePacket encrypted = .ok header.setEncrypted
  host : ∃ payload, Host.parsePacket encrypted = .ok (.ofWasm header.setEncrypted, payload)
  length : encrypted.length = frame.length + aeadTailSize

/-- An encrypted frame and one it is decrypted to: the host accepts it, with the same header but
    for the flag. -/
def Decryption (header : Host.PacketHeader) (decrypted : Bytes) : Prop :=
  ∃ payload, Host.parsePacket decrypted = .ok (header.clearEncrypted, payload)

/-! ## The flag -/

theorem encrypted_eq_false {header : PacketHeader} :
    header.encrypted = false ↔ header.flags &&& encryptedFlag = 0 := by
  rw [PacketHeader.encrypted, bne_eq_false_iff_eq]

theorem flags_setEncrypted (flags : UInt8) : (flags ||| encryptedFlag) &&& encryptedFlag ≠ 0 := by
  revert flags
  decide +kernel

theorem flags_clearEncrypted (flags : UInt8) :
    (flags &&& ~~~encryptedFlag) &&& encryptedFlag = 0 := by
  revert flags
  decide +kernel

/-- Setting the flag and clearing it again. -/
theorem flags_clear_set {flags : UInt8} (h : flags &&& encryptedFlag = 0) :
    (flags ||| encryptedFlag) &&& ~~~encryptedFlag = flags := by
  revert flags
  decide +kernel

theorem toNat_clearEncrypted (flags : UInt8) :
    (flags &&& ~~~encryptedFlag).toNat = flags.toNat &&& 0xfe := by
  rw [UInt8.toNat_and]
  rfl

theorem ofWasm_clearEncrypted (header : PacketHeader) :
    Host.PacketHeader.ofWasm header.clearEncrypted =
      (Host.PacketHeader.ofWasm header).clearEncrypted :=
  congrArg (fun flags => { Host.PacketHeader.ofWasm header with flags })
    (toNat_clearEncrypted header.flags)

/-- The flag of an encrypted frame, as the host reads it. -/
theorem ofWasm_flags {header : PacketHeader}
    (h : (Host.PacketHeader.ofWasm header).flags &&& 1 ≠ 0) :
    header.flags &&& encryptedFlag ≠ 0 := by
  intro hzero
  refine h ?_
  have hnat := congrArg UInt8.toNat hzero
  rwa [UInt8.toNat_and] at hnat

/-! ## Frames -/

/-- A frame that the module accepts, without the flag. -/
theorem parsePacket_clear {frame : Bytes} {header : PacketHeader}
    (h : parsePacket frame = .ok header) (hclear : header.encrypted = false) :
    ∃ payload, frame = joinHeaderPayload header payload ∧ payload.length = header.len.toNat := by
  have hlong : headerSize ≤ frame.length := by
    by_contra hshort
    rw [parsePacket, PacketHeader.fromBytes, if_pos (not_le.1 hshort)] at h
    cases h
  obtain ⟨header', payload, rfl⟩ := exists_joinHeaderPayload hlong
  have hsome := Host.wasm_parsePacket_joinHeaderPayload header' payload
  rw [h] at hsome
  split_ifs at hsome with hlength
  · obtain rfl : header = header' := Option.some.inj hsome
    refine ⟨payload, rfl, hlength.trans ?_⟩
    rw [Host.expectedLength, encrypted_eq_false.1 hclear]
    exact Nat.mod_eq_of_lt header.len.toNat_lt
  · cases hsome

/-- A frame that the host accepts. -/
theorem hostParsePacket_eq {frame : Bytes} {header : Host.PacketHeader} {payload : Bytes}
    (h : Host.parsePacket frame = .ok (header, payload)) :
    ∃ wasmHeader, frame = joinHeaderPayload wasmHeader payload ∧ header = .ofWasm wasmHeader ∧
      payload.length = Host.expectedLength wasmHeader := by
  have hlong : headerSize ≤ frame.length := by
    by_contra hshort
    rw [Host.parsePacket, if_pos (not_le.1 hshort)] at h
    cases h
  obtain ⟨wasmHeader, payload', rfl⟩ := exists_joinHeaderPayload hlong
  have hsome := Host.parsePacket_joinHeaderPayload wasmHeader payload'
  rw [h] at hsome
  split_ifs at hsome with hlength
  · cases hsome
    exact ⟨wasmHeader, rfl, rfl, hlength⟩
  · cases hsome

/-- What an encrypted frame has to be. -/
theorem encryption_joinHeaderPayload {header : PacketHeader} {payload encrypted : Bytes}
    (hpayload : payload.length = header.len.toNat) (hshort : payload.length < 2 ^ 31)
    (hlength : encrypted.length = payload.length + aeadTailSize) :
    Encryption header (joinHeaderPayload header payload)
      (joinHeaderPayload header.setEncrypted encrypted) := by
  have hflag : (header.setEncrypted.flags &&& encryptedFlag == 0) = false := by
    rw [beq_eq_false_iff_ne]
    exact flags_setEncrypted header.flags
  have hexpected : encrypted.length = Host.expectedLength header.setEncrypted := by
    rw [hlength, hpayload, Host.expectedLength, hflag]
    rfl
  have hwrap : Host.expectedLength header.setEncrypted % 2 ^ 32 =
      Host.expectedLength header.setEncrypted := by
    refine Nat.mod_eq_of_lt ?_
    rw [← hexpected, hlength, aeadTailSize]
    omega
  refine ⟨?_, ⟨encrypted, ?_⟩, ?_⟩
  · rw [← Except.toOption_eq_some, Host.wasm_parsePacket_joinHeaderPayload, hwrap, if_pos hexpected]
  · rw [← Except.toOption_eq_some, Host.parsePacket_joinHeaderPayload, if_pos hexpected]
  · rw [length_joinHeaderPayload, length_joinHeaderPayload, hlength, Nat.add_assoc]

/-- What a decrypted frame has to be. -/
theorem decryption_joinHeaderPayload {header : PacketHeader} {payload plaintext : Bytes}
    (hpayload : payload.length = Host.expectedLength header)
    (hencrypted : header.flags &&& encryptedFlag ≠ 0)
    (hlength : plaintext.length + aeadTailSize = payload.length) :
    Decryption (.ofWasm header) (joinHeaderPayload header.clearEncrypted plaintext) := by
  have hflag : (header.clearEncrypted.flags &&& encryptedFlag == 0) = true := by
    rw [beq_iff_eq]
    exact flags_clearEncrypted header.flags
  refine ⟨plaintext, ?_⟩
  rw [← ofWasm_clearEncrypted, ← Except.toOption_eq_some, Host.parsePacket_joinHeaderPayload,
    if_pos]
  rw [Host.expectedLength, if_neg (by rwa [beq_iff_eq])] at hpayload
  rw [Host.expectedLength, if_pos hflag]
  exact Nat.add_right_cancel (hlength.trans hpayload)

/-- An encrypted frame that the host accepts holds a tail. -/
theorem aeadTailSize_le_of_expected {header : PacketHeader} {payload : Bytes}
    (hpayload : payload.length = Host.expectedLength header)
    (hencrypted : header.flags &&& encryptedFlag ≠ 0) : aeadTailSize ≤ payload.length := by
  rw [hpayload, Host.expectedLength, if_neg (by rwa [beq_iff_eq])]
  exact Nat.le_add_left _ _

/-- A payload with a tail ends with the tag and the nonce. -/
theorem exists_tail {payload : Bytes} (h : aeadTailSize ≤ payload.length) :
    ∃ text tag nonce : Bytes, payload = text ++ tag ++ nonce ∧ tag.length = 16 ∧
      nonce.length = 12 := by
  rw [aeadTailSize] at h
  refine ⟨payload.take (payload.length - 28), (payload.drop (payload.length - 28)).take 16,
    (payload.drop (payload.length - 28)).drop 16, ?_, ?_, ?_⟩
  · rw [List.append_assoc, List.take_append_drop, List.take_append_drop]
  · rw [List.length_take, List.length_drop]
    omega
  · rw [List.length_drop, List.length_drop]
    omega

/-! ## The cipher of a network -/

namespace LegacyCipher

variable {c : Crates HS} {cipher : LegacyCipher}

theorem setFlags_joinHeaderPayload (header : PacketHeader) (payload : Bytes) (f : UInt8 → UInt8) :
    setFlags (joinHeaderPayload header payload) f =
      joinHeaderPayload { header with flags := f header.flags } payload := rfl

theorem length_key128 {networkSecret : String} (h : new networkSecret = .ok cipher) :
    cipher.key128.length = 16 := by
  unfold new at h
  split_ifs at h
  obtain rfl := Except.ok.inj h
  rw [deriveKey128, length_digestShards]
  rfl

/-- What is encrypted: the payload, followed by the tag and the nonce. -/
theorem encryptPacket_joinHeaderPayload {header : PacketHeader} {payload ciphertext : Bytes}
    {tag : Vector UInt8 16} {nonce : Vector UInt8 12}
    (hseal : c.aeadSeal .aesGcm cipher.key128 nonce.toList payload = some (ciphertext, tag)) :
    cipher.encryptPacket c (joinHeaderPayload header payload) (.ok nonce) =
      .ok (joinHeaderPayload header.setEncrypted (ciphertext ++ tag.toList ++ nonce.toList)) := by
  have hlong : ¬ (joinHeaderPayload header payload).length < headerSize := by
    rw [length_joinHeaderPayload]
    omega
  unfold encryptPacket
  rw [if_neg hlong, drop_joinHeaderPayload]
  simp only [Except.mapError, bind, Except.bind, pure, Except.pure, hseal]
  rfl

/-- What is decrypted is cut where it was put together. -/
theorem decryptPacket_joinHeaderPayload {header : PacketHeader} {text : Bytes} {tag : Bytes}
    {nonce : Bytes} (htag : tag.length = 16) (hnonce : nonce.length = 12)
    (hencrypted : header.flags &&& encryptedFlag ≠ 0) :
    cipher.decryptPacket c (joinHeaderPayload header (text ++ tag ++ nonce)) =
      match c.aeadOpen .aesGcm cipher.key128 nonce text tag with
      | none => .error "legacy AES-128-GCM decryption failed"
      | some plaintext => .ok (joinHeaderPayload header.clearEncrypted plaintext) := by
  have hlength : (joinHeaderPayload header (text ++ tag ++ nonce)).length =
      headerSize + (text.length + aeadTailSize) := by
    rw [length_joinHeaderPayload, List.length_append, List.length_append, htag, hnonce,
      Nat.add_assoc]
    rfl
  have hlong : ¬ headerSize + (text.length + aeadTailSize) < headerSize := by omega
  have htail : ¬ headerSize + (text.length + aeadTailSize) < headerSize + aeadTailSize := by omega
  have htext : headerSize + (text.length + aeadTailSize) - headerSize - aeadTailSize =
      text.length := by omega
  unfold decryptPacket
  rw [hlength, if_neg hlong, fromBytes_joinHeaderPayload]
  simp only [bind, Except.bind, pure, Except.pure]
  rw [if_neg hencrypted, if_neg htail, htext, drop_joinHeaderPayload, ← List.drop_drop,
    drop_joinHeaderPayload, List.append_assoc, List.take_left, List.drop_left,
    List.take_left' htag, List.drop_left' htag]
  cases c.aeadOpen .aesGcm cipher.key128 nonce text tag <;> rfl

/-- A clear frame is encrypted to a frame that decrypts to it. -/
theorem encryptPacket_encrypts (hopen : c.OpensSealed) (hkeeps : c.KeepsLength)
    (hseals : c.SealsFrames) {networkSecret : String} (hnew : new networkSecret = .ok cipher)
    {frame : Bytes} {header : PacketHeader} (hparse : parsePacket frame = .ok header)
    (hclear : header.encrypted = false) (hshort : frame.length < 2 ^ 31)
    (nonce : Vector UInt8 12) :
    ∃ encrypted, cipher.encryptPacket c frame (.ok nonce) = .ok encrypted ∧
      Encryption header frame encrypted ∧ cipher.decryptPacket c encrypted = .ok frame := by
  obtain ⟨payload, rfl, hpayload⟩ := parsePacket_clear hparse hclear
  have hfits : payload.length < 2 ^ 31 := by
    rw [length_joinHeaderPayload] at hshort
    omega
  obtain ⟨⟨ciphertext, tag⟩, hseal⟩ := Option.isSome_iff_exists.1
    (hseals .aesGcm cipher.key128 nonce.toList payload (length_key128 hnew)
      nonce.length_toList hfits)
  refine ⟨_, encryptPacket_joinHeaderPayload hseal, ?_, ?_⟩
  · refine encryption_joinHeaderPayload hpayload hfits ?_
    rw [List.length_append, List.length_append, hkeeps.sealed _ _ _ _ _ _ hseal,
      tag.length_toList, nonce.length_toList, Nat.add_assoc]
    rfl
  · rw [decryptPacket_joinHeaderPayload tag.length_toList nonce.length_toList
      (flags_setEncrypted header.flags), hopen _ _ _ _ _ _ hseal]
    -- Clearing the flag of the header gives the header back.
    refine congrArg (fun flags => Except.ok (joinHeaderPayload { header with flags } payload)) ?_
    exact flags_clear_set (encrypted_eq_false.1 hclear)

/-- What an encrypted frame is decrypted to. -/
theorem decryptPacket_decrypts (hkeeps : c.KeepsLength) {frame : Bytes}
    {header : Host.PacketHeader} {payload : Bytes}
    (hparse : Host.parsePacket frame = .ok (header, payload)) (hencrypted : header.flags &&& 1 ≠ 0)
    {decrypted : Bytes} (h : cipher.decryptPacket c frame = .ok decrypted) :
    Decryption header decrypted := by
  obtain ⟨wasmHeader, rfl, rfl, hpayload⟩ := hostParsePacket_eq hparse
  have hflag := ofWasm_flags hencrypted
  -- The payload ends with the tag and the nonce.
  obtain ⟨text, tag, nonce, rfl, htag, hnonce⟩ := exists_tail
    (aeadTailSize_le_of_expected hpayload hflag)
  rw [decryptPacket_joinHeaderPayload htag hnonce hflag] at h
  cases hopened : c.aeadOpen .aesGcm cipher.key128 nonce text tag with
  | none =>
    rw [hopened] at h
    cases h
  | some plaintext =>
    rw [hopened] at h
    obtain rfl := Except.ok.inj h
    refine decryption_joinHeaderPayload hpayload hflag ?_
    rw [hkeeps.opened _ _ _ _ _ _ hopened, List.length_append, List.length_append, htag, hnonce,
      Nat.add_assoc]
    rfl

end LegacyCipher

/-! ## The session of a connection -/

section Sessions

variable {c : Crates HS}

/-- What is sealed for a frame is longer by the tail, and only fails when the sequences are used
    up. -/
theorem TrafficState.encryptPayload_seals (hkeeps : c.KeepsLength) (hseals : c.SealsFrames)
    (t : TrafficState) (rootKey : Key32) (direction : Fin 2) {plaintext : Bytes}
    (hshort : plaintext.length < 2 ^ 31) (ms : UInt64)
    (hleft : (t.sendSeq direction).toNat ≠ 2 ^ 64 - 1) :
    ∃ encrypted, (t.encryptPayload c (some rootKey) serverEncryptionAlgorithm direction plaintext
        ms).1 = .ok encrypted ∧ encrypted.length = plaintext.length + aeadTailSize := by
  have hseq := congrFun (maybeRotateEpoch_sendSeq t ms) direction
  unfold encryptPayload
  dsimp only
  rw [hseq]
  cases hadd : (t.sendSeq direction).checkedAdd 1 with
  | none => exact absurd (UInt64.checkedAdd_one_eq_none.1 hadd) hleft
  | some next =>
    have hcipher : normalizedAlgorithm serverEncryptionAlgorithm = .ok .aesGcm := by
      decide +kernel
    obtain ⟨key, hkey⟩ : ∃ key, trafficKey c (some rootKey) (t.maybeRotateEpoch ms).sendEpoch
        direction = .ok key := ⟨_, rfl⟩
    obtain ⟨⟨ciphertext, tag⟩, hseal⟩ := Option.isSome_iff_exists.1
      (hseals .aesGcm (Cipher.keyBytes .aesGcm key) (nonceBytes (t.maybeRotateEpoch ms).sendEpoch
        (t.sendSeq direction)) plaintext (Cipher.length_keyBytes _ _) (length_nonceBytes _ _) hshort)
    refine ⟨ciphertext ++ tag.toList ++ nonceBytes (t.maybeRotateEpoch ms).sendEpoch
      (t.sendSeq direction), ?_, ?_⟩
    · dsimp only
      rw [hkey]
      simp only [bind, Except.bind, sealBytes, hcipher, hseal, pure, Except.pure]
    · rw [List.length_append, List.length_append, hkeeps.sealed _ _ _ _ _ _ hseal,
        tag.length_toList, length_nonceBytes, Nat.add_assoc]
      rfl

theorem StoredSession.encrypt_eq (s : StoredSession) {frame : Bytes} {header : PacketHeader}
    (hparse : parsePacket frame = .ok header) (hclear : header.encrypted = false)
    (clock : PacketClock) :
    s.encrypt c header.fromPeerId header.toPeerId frame clock =
      ((s.encryptPayload c (some s.rootKey) serverEncryptionAlgorithm
          (directionIndex header.fromPeerId header.toPeerId) (frame.drop headerSize)
          clock.payloadMs).1.map (joinHeaderPayload header.setEncrypted),
        s.save (s.encryptPayload c (some s.rootKey) serverEncryptionAlgorithm
          (directionIndex header.fromPeerId header.toPeerId) (frame.drop headerSize)
          clock.payloadMs).2 clock.persistMs) := by
  have hsplit : splitPacket frame = .ok (header, frame.drop headerSize) := by
    rw [splitPacket, hparse]
    rfl
  unfold encrypt
  rw [hsplit]
  dsimp only
  rw [if_neg (by simp), if_neg (by rw [hclear]; decide)]
  rfl

/-- A clear frame of the server to the client is encrypted. -/
theorem StoredSession.encrypt_encrypts (hkeeps : c.KeepsLength) (hseals : c.SealsFrames)
    (s : StoredSession) {frame : Bytes} {header : PacketHeader}
    (hparse : parsePacket frame = .ok header) (hclear : header.encrypted = false)
    (hshort : frame.length < 2 ^ 31) (clock : PacketClock)
    (hleft : (s.sendSeq (directionIndex header.fromPeerId header.toPeerId)).toNat ≠ 2 ^ 64 - 1) :
    ∃ encrypted, (s.encrypt c header.fromPeerId header.toPeerId frame clock).1 = .ok encrypted ∧
      Encryption header frame encrypted := by
  obtain ⟨payload, rfl, hpayload⟩ := parsePacket_clear hparse hclear
  have hfits : payload.length < 2 ^ 31 := by
    rw [length_joinHeaderPayload] at hshort
    omega
  obtain ⟨encrypted, heq, hlength⟩ := s.encryptPayload_seals hkeeps hseals s.rootKey _ hfits
    clock.payloadMs hleft
  refine ⟨joinHeaderPayload header.setEncrypted encrypted, ?_,
    encryption_joinHeaderPayload hpayload hfits hlength⟩
  rw [s.encrypt_eq hparse hclear, drop_joinHeaderPayload, heq]
  rfl

theorem openBytes_eq_ok {algorithm : String} {key : Key32} {nonce ciphertext tag plaintext : Bytes}
    (h : openBytes c algorithm key nonce ciphertext tag = .ok plaintext) :
    ∃ cipher key, c.aeadOpen cipher key nonce ciphertext tag = some plaintext := by
  unfold openBytes at h
  rw [Except.bind_eq_ok] at h
  obtain ⟨cipher, -, hopen⟩ := h
  cases hopened : c.aeadOpen cipher (cipher.keyBytes key) nonce ciphertext tag with
  | none =>
    rw [hopened] at hopen
    cases hopen
  | some opened =>
    rw [hopened] at hopen
    exact ⟨cipher, _, hopened.trans (congrArg some (Except.pure_eq_ok.1 hopen))⟩

/-- What is opened of an encrypted payload is shorter by the tail. -/
theorem TrafficState.decryptPayload_opens (hkeeps : c.KeepsLength) (t : TrafficState)
    (rootKey : Option Key32) (algorithm : String) (direction : Fin 2) (payload : Bytes)
    (ms : UInt64) (plaintext : Bytes)
    (h : (t.decryptPayload c rootKey algorithm direction payload ms).1 = .ok (some plaintext)) :
    plaintext.length + aeadTailSize = payload.length := by
  unfold decryptPayload at h
  split_ifs at h with hshort
  dsimp only at h
  by_cases hcheck : (!(t.evictOldRxSlots ms).precheckReplay (payloadNonce payload).1
      (payloadNonce payload).2 direction) = true
  · rw [if_pos hcheck] at h
    cases h
  rw [if_neg hcheck] at h
  cases hkey : trafficKey c rootKey (payloadNonce payload).1 direction with
  | error e =>
    rw [hkey] at h
    cases h
  | ok key =>
    rw [hkey] at h
    dsimp only at h
    cases hopen : openBytes c algorithm key (payload.drop (payload.length - aeadTailSize +
        aeadTagSize)) (payload.take (payload.length - aeadTailSize))
        ((payload.drop (payload.length - aeadTailSize)).take aeadTagSize) with
    | error e =>
      rw [hopen] at h
      dsimp only at h
      split_ifs at h
      cases h
    | ok opened =>
      rw [hopen] at h
      dsimp only at h
      split_ifs at h <;> cases h
      obtain ⟨cipher, key, hopened⟩ := openBytes_eq_ok hopen
      rw [hkeeps.opened _ _ _ _ _ _ hopened, List.length_take]
      omega

/-- What an encrypted frame is decrypted to, unless it is dropped. -/
theorem SecurePeer.decryptPacket_decrypts (hkeeps : c.KeepsLength) (p : SecurePeer HS)
    (sessions : SessionStore) (clock : PacketClock) {frame : Bytes} {header : Host.PacketHeader}
    {payload : Bytes} (hparse : Host.parsePacket frame = .ok (header, payload))
    (hencrypted : header.flags &&& 1 ≠ 0) {decrypted : Bytes}
    (h : (p.decryptPacket c sessions frame clock).1 = .ok decrypted) (hkept : decrypted ≠ []) :
    Decryption header decrypted := by
  obtain ⟨wasmHeader, rfl, rfl, hpayload⟩ := hostParsePacket_eq hparse
  have hflag := ofWasm_flags hencrypted
  unfold decryptPacket at h
  cases hauth : p.ensureAuthenticated with
  | error e =>
    rw [hauth] at h
    cases h
  | ok u =>
    rw [hauth] at h
    dsimp only at h
    cases hload : p.loadSessionState sessions with
    | error e =>
      rw [hload] at h
      cases h
    | ok q =>
      rw [hload] at h
      dsimp only at h
      cases hsplit : splitPacket (joinHeaderPayload wasmHeader payload) with
      | error m =>
        rw [hsplit] at h
        cases h
      | ok parts =>
        obtain ⟨header', payload'⟩ := parts
        obtain ⟨hheader, rfl⟩ := splitPacket_eq_ok hsplit
        obtain rfl := Except.ok.inj (hheader.symm.trans (fromBytes_joinHeaderPayload _ _))
        rw [hsplit] at h
        dsimp only at h
        cases hpeer : q.peerId with
        | none =>
          rw [hpeer] at h
          cases h
        | some peerId =>
          rw [hpeer] at h
          dsimp only at h
          split_ifs at h with haddressed hclear
          · -- A clear frame, which this one is not.
            exact absurd (encrypted_eq_false.1 (by simpa using hclear)) hflag
          · have hopens := q.decryptPayload_opens hkeeps q.rootKey (q.clientAlgorithm.getD "aes-gcm")
              (directionIndex header'.fromPeerId header'.toPeerId) payload'
              clock.payloadMs
            generalize q.decryptPayload c q.rootKey (q.clientAlgorithm.getD "aes-gcm")
              (directionIndex header'.fromPeerId header'.toPeerId) payload' clock.payloadMs = r
              at h hopens
            generalize SecurePeer.persistSessionState _ sessions clock.persistMs = saved at h
            rcases saved with e | sessions'
            · cases h
            · obtain ⟨e | _ | plaintext, t⟩ := r
              · cases h
              · exact absurd (Except.ok.inj h).symm hkept
              · obtain rfl := Except.ok.inj h
                exact decryption_joinHeaderPayload hpayload hflag (hopens _ rfl)

/-- The session of the connection has a sequence left in a direction. -/
def SecurePeer.SequenceLeft (p : SecurePeer HS) (sessions : SessionStore) (direction : Fin 2) :
    Prop :=
  ∀ key s, p.sessionKey = some key → sessions.lookup key = some s →
    (s.sendSeq direction).toNat ≠ 2 ^ 64 - 1

/-- A clear frame of the server to the client of an authenticated connection is encrypted. -/
theorem SecurePeer.encryptPacket_encrypts (hkeeps : c.KeepsLength) (hseals : c.SealsFrames)
    {w : World HS} (hw : (store c).Reachable w) {h : Handle} {p : SecurePeer HS}
    (hp : w.peers.lookup h = some p) (hauth : p.authenticated) {frame : Bytes}
    {header : PacketHeader} (hparse : parsePacket frame = .ok header)
    (hclear : header.encrypted = false) (hshort : frame.length < 2 ^ 31)
    (hfrom : header.fromPeerId = p.serverPeerId) (hto : p.peerId = some header.toPeerId)
    (hleft : p.SequenceLeft w.sessions (directionIndex header.fromPeerId header.toPeerId))
    (clock : PacketClock) :
    ∃ encrypted, (p.encryptPacket c w.sessions frame clock).1 = .ok encrypted ∧
      Encryption header frame encrypted := by
  have hcons := (consistent_of_reachable hw).peers h p hp
  obtain ⟨key, s, hkey, hs, hagrees⟩ := hcons.agrees (.inl hauth)
  rw [encryptPacket_eq hauth (hcons.rootKey_isSome hkey) hkey hs hto, ← hfrom]
  exact s.encrypt_encrypts hkeeps hseals hparse hclear hshort clock (hleft key s hkey hs)

end Sessions

/-- Encrypting a clear frame gives one that both parsers accept, and decrypting an encrypted one
    that the host accepts gives one that it accepts. -/
theorem encryption_framed (c : Crates HS) (hopen : c.OpensSealed) (hkeeps : c.KeepsLength)
    (hseals : c.SealsFrames) :
    (∀ frame header, parsePacket frame = .ok header → header.encrypted = false →
      frame.length < 2 ^ 31 →
      (∀ networkSecret cipher nonce, LegacyCipher.new networkSecret = .ok cipher →
        ∃ encrypted, cipher.encryptPacket c frame (.ok nonce) = .ok encrypted ∧
          Encryption header frame encrypted ∧ cipher.decryptPacket c encrypted = .ok frame) ∧
      ∀ w h p clock, (store c).Reachable w → w.peers.lookup h = some p → p.authenticated →
        header.fromPeerId = p.serverPeerId → p.peerId = some header.toPeerId →
        p.SequenceLeft w.sessions (directionIndex header.fromPeerId header.toPeerId) →
        ∃ encrypted, (p.encryptPacket c w.sessions frame clock).1 = .ok encrypted ∧
          Encryption header frame encrypted) ∧
    ∀ frame header payload, Host.parsePacket frame = .ok (header, payload) →
      header.flags &&& 1 ≠ 0 →
      (∀ (cipher : LegacyCipher) decrypted, cipher.decryptPacket c frame = .ok decrypted →
        Decryption header decrypted) ∧
      ∀ (p : SecurePeer HS) sessions clock decrypted,
        (p.decryptPacket c sessions frame clock).1 = .ok decrypted → decrypted ≠ [] →
        Decryption header decrypted := by
  refine ⟨fun frame header hparse hclear hshort => ⟨?_, ?_⟩,
    fun frame header payload hparse hencrypted => ⟨?_, ?_⟩⟩
  · intro networkSecret cipher nonce hnew
    exact LegacyCipher.encryptPacket_encrypts hopen hkeeps hseals hnew hparse hclear hshort nonce
  · intro w h p clock hw hp hauth hfrom hto hleft
    exact SecurePeer.encryptPacket_encrypts hkeeps hseals hw hp hauth hparse hclear hshort hfrom
      hto hleft clock
  · intro cipher decrypted h
    exact LegacyCipher.decryptPacket_decrypts hkeeps hparse hencrypted h
  · intro p sessions clock decrypted h hkept
    exact p.decryptPacket_decrypts hkeeps sessions clock hparse hencrypted h hkept

/-! ## A session that is used up

An authenticated connection that keeps sending comes to its last sequence, and then no frame is
encrypted any more. -/

section Exhausted

variable {c : Crates HS}

/-- Encrypting takes the next sequence. -/
theorem TrafficState.encryptPayload_sendSeq (t : TrafficState) (rootKey : Option Key32)
    (algorithm : String) (direction : Fin 2) (plaintext : Bytes) (ms : UInt64)
    (hleft : (t.sendSeq direction).toNat ≠ 2 ^ 64 - 1) :
    ((t.encryptPayload c rootKey algorithm direction plaintext ms).2.sendSeq direction).toNat =
      (t.sendSeq direction).toNat + 1 := by
  have hseq := congrFun (maybeRotateEpoch_sendSeq t ms) direction
  unfold encryptPayload
  dsimp only
  rw [hseq]
  cases hadd : (t.sendSeq direction).checkedAdd 1 with
  | none => exact absurd (UInt64.checkedAdd_one_eq_none.1 hadd) hleft
  | some next =>
    dsimp only
    rw [Function.update_self]
    exact UInt64.checkedAdd_one_eq_some hadd

/-- There is no sequence after the last one. -/
theorem TrafficState.encryptPayload_exhausted (t : TrafficState) (rootKey : Option Key32)
    (algorithm : String) (direction : Fin 2) (plaintext : Bytes) (ms : UInt64)
    (hlast : (t.sendSeq direction).toNat = 2 ^ 64 - 1) :
    (t.encryptPayload c rootKey algorithm direction plaintext ms).1 =
      .error .sequenceExhausted := by
  have hseq := congrFun (maybeRotateEpoch_sendSeq t ms) direction
  unfold encryptPayload
  dsimp only
  rw [hseq, UInt64.checkedAdd_one_eq_none.2 hlast]

/-- A frame that an authenticated connection of a reachable world refuses to encrypt, for want of
    a sequence. -/
structure Refused (c : Crates HS) (w : World HS) (p : SecurePeer HS) (h : Handle) (frame : Bytes)
    (header : PacketHeader) : Prop where
  reachable : (store c).Reachable w
  lookup : w.peers.lookup h = some p
  authenticated : p.authenticated
  fromPeerId : header.fromPeerId = p.serverPeerId
  toPeerId : p.peerId = some header.toPeerId
  refused : ∀ clock, (p.encryptPacket c w.sessions frame clock).1 = .error .sequenceExhausted

/-- Sending a frame over and over comes to the last sequence. -/
theorem exists_refused {frame : Bytes} {header : PacketHeader}
    (hparse : parsePacket frame = .ok header) (hclear : header.encrypted = false)
    (clock : PacketClock) (n : ℕ) {w : World HS} (hw : (store c).Reachable w) {h : Handle}
    {p : SecurePeer HS} (hp : w.peers.lookup h = some p) (hauth : p.authenticated)
    (hfrom : header.fromPeerId = p.serverPeerId) (hto : p.peerId = some header.toPeerId)
    {key : SessionKey} {s : StoredSession} (hkey : p.sessionKey = some key)
    (hs : w.sessions.lookup key = some s)
    (hcount : (s.sendSeq (directionIndex header.fromPeerId header.toPeerId)).toNat + n =
      2 ^ 64 - 1) :
    ∃ w' p', Refused c w' p' h frame header := by
  have hroot := ((consistent_of_reachable hw).peers h p hp).rootKey_isSome hkey
  induction n generalizing w p s with
  | zero =>
    refine ⟨w, p, hw, hp, hauth, hfrom, hto, fun clock => ?_⟩
    rw [SecurePeer.encryptPacket_eq hauth hroot hkey hs hto, ← hfrom, s.encrypt_eq hparse hclear,
      s.encryptPayload_exhausted _ _ _ _ _ hcount]
    rfl
  | succ n ih =>
    have hleft : (s.sendSeq (directionIndex header.fromPeerId header.toPeerId)).toNat ≠
        2 ^ 64 - 1 := by omega
    have hsent := s.encryptPayload_sendSeq (c := c) (some s.rootKey) serverEncryptionAlgorithm _
      (frame.drop headerSize) clock.payloadMs hleft
    have hnext := hw.step (.call h (.encryptPacket frame clock))
    dsimp only [store, World.step] at hnext
    rw [hp] at hnext
    dsimp only [SecurePeer.call] at hnext
    rw [SecurePeer.encryptPacket_eq hauth hroot hkey hs hto, ← hfrom,
      s.encrypt_eq hparse hclear] at hnext
    refine ih hnext (Finmap.lookup_insert _) hauth hfrom hto hkey (Finmap.lookup_insert _) ?_ rfl
    -- Saving the session keeps the sequence.
    refine (congrArg (· + n) hsent).trans ?_
    omega

end Exhausted

namespace FramingSample

open Sample

/-- The frame that the server sends. -/
def outgoing : Bytes := wrapPacket server client 8 0 [1, 2, 3]

/-- Its header. -/
def outgoingHeader : PacketHeader := ⟨server, client, 8, 0, 1, 0, 3⟩

/-- The connection of the sample is authenticated, and has not sent anything. -/
theorem exists_connected :
    ∃ p s, (world (connect 0 0 1 1000)).peers.lookup 0 = some p ∧ p.authenticated ∧
      p.serverPeerId = server ∧ p.peerId = some client ∧ p.sessionKey = some sessionKey ∧
      (world (connect 0 0 1 1000)).sessions.lookup sessionKey = some s ∧
      (s.sendSeq (directionIndex server client)).toNat = 0 := by
  obtain ⟨p, hp⟩ : ∃ p, (world (connect 0 0 1 1000)).peers.lookup 0 = some p :=
    Option.isSome_iff_exists.1 (by decide +kernel)
  obtain ⟨s, hs⟩ : ∃ s, (world (connect 0 0 1 1000)).sessions.lookup sessionKey = some s :=
    Option.isSome_iff_exists.1 (by decide +kernel)
  have hstate : ((world (connect 0 0 1 1000)).peers.lookup 0).map (fun p =>
      (p.authenticated, p.serverPeerId, p.peerId, p.sessionKey)) =
        some (true, server, some client, some sessionKey) := by
    decide +kernel
  have hcount : ((world (connect 0 0 1 1000)).sessions.lookup sessionKey).map (fun s =>
      (s.sendSeq (directionIndex server client)).toNat) = some 0 := by
    decide +kernel
  rw [hp, Option.map_some, Option.some.injEq, Prod.mk.injEq, Prod.mk.injEq, Prod.mk.injEq] at hstate
  rw [hs, Option.map_some, Option.some.injEq] at hcount
  obtain ⟨hauth, hserver, hclient, hkey⟩ := hstate
  exact ⟨p, s, hp, hauth, hserver, hclient, hkey, hs, hcount⟩

/-- An authenticated connection does not encrypt every frame. -/
theorem sequences_used_up :
    parsePacket outgoing = .ok outgoingHeader ∧ outgoingHeader.encrypted = false ∧
      outgoing.length < 2 ^ 31 ∧
      ∃ w p, Refused Crates.transparent w p 0 outgoing outgoingHeader := by
  obtain ⟨p, s, hp, hauth, hserver, hclient, hkey, hs, hcount⟩ := exists_connected
  refine ⟨by decide +kernel, by decide +kernel, by decide +kernel, ?_⟩
  refine exists_refused (by decide +kernel) (by decide +kernel) (still 1000) (2 ^ 64 - 1)
    ⟨_, rfl⟩ hp hauth hserver.symm hclient hkey hs ?_
  exact (congrArg (· + (2 ^ 64 - 1)) hcount).trans (Nat.zero_add _)

theorem transparent_opensSealed : Crates.transparent.OpensSealed := by
  rintro cipher key nonce plaintext ciphertext tag ⟨⟩
  rfl

theorem transparent_keepsLength : Crates.transparent.KeepsLength where
  sealed := by
    rintro cipher key nonce plaintext ciphertext tag ⟨⟩
    rfl
  opened := by
    intro cipher key nonce ciphertext tag plaintext h
    change (if tag = List.replicate 16 0 then some ciphertext else none) = some plaintext at h
    split_ifs at h
    rw [Option.some.inj h]

theorem transparent_sealsFrames : Crates.transparent.SealsFrames := fun _ _ _ _ _ _ _ => rfl

/-- The cipher of the network's secret. -/
def cipher : LegacyCipher := ⟨deriveKey128 secret⟩

/-- Frames of the server and of the client, with both ciphers. -/
theorem outgoing_and_incoming_framed :
    (∃ encrypted, cipher.encryptPacket Crates.transparent outgoing (.ok (Vector.replicate 12 7)) =
        .ok encrypted ∧ Encryption outgoingHeader outgoing encrypted ∧
        cipher.decryptPacket Crates.transparent encrypted = .ok outgoing) ∧
      (∃ p encrypted, (world (connect 0 0 1 1000)).peers.lookup 0 = some p ∧
        (p.encryptPacket Crates.transparent (world (connect 0 0 1 1000)).sessions outgoing
          (still 1000)).1 = .ok encrypted ∧ Encryption outgoingHeader outgoing encrypted) ∧
      ∃ header payload p decrypted, Host.parsePacket (Sample.frame 0 0) = .ok (header, payload) ∧
        (world (connect 0 0 1 1000)).peers.lookup 0 = some p ∧
        (p.decryptPacket Crates.transparent (world (connect 0 0 1 1000)).sessions
          (Sample.frame 0 0) (still 1000)).1 = .ok decrypted ∧ Decryption header decrypted := by
  obtain ⟨hencrypts, hdecrypts⟩ := encryption_framed Crates.transparent transparent_opensSealed
    transparent_keepsLength transparent_sealsFrames
  obtain ⟨hlegacy, hsession⟩ := hencrypts outgoing outgoingHeader (by decide +kernel)
    (by decide +kernel) (by decide +kernel)
  obtain ⟨p, s, hp, hauth, hserver, hclient, hkey, hs, hcount⟩ := exists_connected
  refine ⟨hlegacy secret cipher _ rfl, ?_, ?_⟩
  · have hleft : p.SequenceLeft (world (connect 0 0 1 1000)).sessions
        (directionIndex server client) := by
      intro key' s' hkey' hs' hlast
      obtain rfl := Option.some.inj (hkey.symm.trans hkey')
      obtain rfl := Option.some.inj (hs.symm.trans hs')
      omega
    obtain ⟨encrypted, hok, hencryption⟩ := hsession _ 0 p (still 1000) ⟨_, rfl⟩ hp hauth
      hserver.symm hclient hleft
    exact ⟨p, encrypted, hp, hok, hencryption⟩
  · have hparse : Host.parsePacket (Sample.frame 0 0) =
        .ok (.ofWasm ⟨client, server, 8, encryptedFlag, 1, 0, 3⟩,
          (Sample.frame 0 0).drop headerSize) := by
      rw [← Except.toOption_eq_some]
      decide +kernel
    have hdecrypted : ((world (connect 0 0 1 1000)).peers.lookup 0).map (fun p =>
        (p.decryptPacket Crates.transparent (world (connect 0 0 1 1000)).sessions
          (Sample.frame 0 0) (still 1000)).1.toOption) =
          some (some (joinHeaderPayload ⟨client, server, 8, 0, 1, 0, 3⟩ [4, 5, 6])) := by
      decide +kernel
    rw [hp, Option.map_some, Option.some.injEq, Except.toOption_eq_some] at hdecrypted
    exact ⟨_, _, p, _, hparse, hp, hdecrypted,
      (hdecrypts _ _ _ hparse (by decide +kernel)).2 p _ _ _ hdecrypted (List.cons_ne_nil _ _)⟩

end FramingSample

end EasyTierEdge
