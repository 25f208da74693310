import HiddenLightning.Commands

/-! # What `parse_peer_info` accepts

A peer is given as `pubkey@host:port`, by the user and in the file of peers.
`parse_peer_info` (`cli.rs`) splits the string at every `@` and takes the first two parts; of
the first, `to_compressed_pubkey` takes 66 bytes for the key.  Whatever stands between the
66th digit and the `@`, and from a second `@` on, is dropped without a word.

`peer_text_iff` says for every string that is accepted when all of it was read.
-/
namespace HiddenLightning
open Numerals Words

variable {E : Secp256k1} {A : Type}

/-! ## Keys -/

/-- Only digits are accepted. -/
theorem exists_hexValue_of_toVec {digits : Text} {bytes : List UInt8}
    (h : toVec digits = some bytes) : ∀ c ∈ digits, ∃ n, hexValue c = some n := by
  induction digits using toVec.induct generalizing bytes with
  | case1 => simp
  | case2 c =>
    obtain ⟨n, hn, -⟩ := Option.map_eq_some_iff.mp h
    intro c' hc'
    rw [List.mem_singleton.mp hc']
    exact ⟨n, hn⟩
  | case3 hi lo rest ih =>
    rw [toVec] at h
    obtain ⟨high, hhigh, h⟩ := Option.bind_eq_some_iff.mp h
    obtain ⟨low, hlow, h⟩ := Option.bind_eq_some_iff.mp h
    obtain ⟨tail, htail, -⟩ := Option.bind_eq_some_iff.mp h
    intro c hc
    rcases List.mem_cons.mp hc with rfl | hc
    · exact ⟨high, hhigh⟩
    rcases List.mem_cons.mp hc with rfl | hc
    · exact ⟨low, hlow⟩
    · exact ih htail c hc

theorem toNat_lt_of_toVec {digits : Text} {bytes : List UInt8} (h : toVec digits = some bytes) :
    ∀ c ∈ digits, c.toNat < 128 := by
  intro c hc
  obtain ⟨n, hn⟩ := exists_hexValue_of_toVec h c hc
  exact toNat_lt_of_hexValue hn

/-- On an even number of digits the two readers agree. -/
theorem toVec_eq_bytesOfHex {digits : Text} (h : digits.length % 2 = 0) :
    toVec digits = bytesOfHex digits := by
  induction digits using toVec.induct with
  | case1 => rfl
  | case2 c =>
    rw [List.length_singleton] at h
    omega
  | case3 hi lo rest ih =>
    rw [List.length_cons, List.length_cons] at h
    rw [toVec, bytesOfHex, ih (by omega)]

/-- **What `to_compressed_pubkey` accepts**: the 66 digits of the key, in either case, and anything
after them. -/
theorem exists_digits_of_toCompressedPubkey (hE : E.Standard) {hex : Text} {pubkey : PublicKey E}
    (h : toCompressedPubkey E hex = some (some pubkey)) :
    ∃ digits rest, hex = digits ++ rest ∧ digits.length = 66 ∧
      digits.map Char.toLower = pubkey.toText := by
  obtain ⟨digits, hslice, hread⟩ := Option.map_eq_some_iff.mp h
  obtain ⟨bytes, hbytes, hkey⟩ := Option.bind_eq_some_iff.mp hread
  obtain ⟨rest, rfl, hlength⟩ := exists_of_sliceTo hslice
  rw [byteLength_of_ascii (toNat_lt_of_toVec hbytes)] at hlength
  refine ⟨digits, rest, rfl, hlength, ?_⟩
  rw [toVec_eq_bytesOfHex (by omega)] at hbytes
  have hprinted := hexOfBytes_of_bytesOfHex hbytes
  have hshort : bytes.length = 33 := by
    have := congrArg List.length hprinted
    rw [length_hexOfBytes, List.length_map] at this
    omega
  have hdecode : E.decode bytes = some pubkey.bytes := by
    unfold PublicKey.fromSlice at hkey
    split at hkey
    · cases hkey
    · rename_i hdecode
      cases hkey
      exact hdecode
  rw [PublicKey.toText, hE.compressed hdecode hshort, hprinted]

/-! ## Peers -/

/-- **All of the string was read**: it is the 66 digits of the key in either case, one `@`, and a
text that resolves to the address. -/
def PeerText (env : CliEnv E A) (s : Text) (pubkey : PublicKey E) (addr : A) : Prop :=
  ∃ digits host, s = digits ++ '@' :: host ∧ digits.length = 66 ∧
    digits.map Char.toLower = pubkey.toText ∧ '@' ∉ host ∧
    ∃ others, env.toSocketAddrs host = .ok (addr :: others)

/-- What was accepted: the key is read from what stands before the first `@`, the address from what
stands between it and the next. -/
theorem exists_parts_of_parsePeerInfo {env : CliEnv E A} {s : Text} {pubkey : PublicKey E}
    {addr : A} (h : parsePeerInfo env s = some (.ok (pubkey, addr))) :
    ∃ key rest, s = key ++ '@' :: rest ∧ '@' ∉ key ∧
      toCompressedPubkey E key = some (some pubkey) ∧
      ∃ host others, (∃ more, rest.splitOn '@' = host :: more) ∧
        env.toSocketAddrs host = .ok (addr :: others) := by
  unfold parsePeerInfo at h
  by_cases hat : '@' ∈ s
  · obtain ⟨key, rest, rfl, hkey⟩ := List.eq_append_cons_of_mem hat
    rw [List.splitOn_append_cons_self_of_not_mem hkey] at h
    refine ⟨key, rest, rfl, hkey, ?_⟩
    split at h
    · rename_i key' host more hsplit
      rw [List.cons.injEq] at hsplit
      obtain ⟨rfl, hsplit⟩ := hsplit
      split at h
      · rename_i addr' others haddr
        obtain ⟨pubkey', hpubkey, hok⟩ := Option.map_eq_some_iff.mp h
        rcases pubkey' with _ | pubkey'
        · cases hok
        · cases hok
          exact ⟨hpubkey, host, others, ⟨more, hsplit⟩, haddr⟩
      · cases h
    · cases h
  · rw [List.splitOn_eq_singleton hat] at h
    cases h

/-- What stands before the first `@`. -/
theorem takeWhile_at {front back : Text} (h : '@' ∉ front) :
    (front ++ '@' :: back).takeWhile (fun c => c ≠ '@') = front := by
  have hfront : ∀ c ∈ front, decide (c ≠ '@') = true := by
    intro c hc
    refine decide_eq_true ?_
    rintro rfl
    exact h hc
  rw [List.takeWhile_append_of_pos hfront]
  simp

/-- A string that was read as a whole has nothing to be dropped. -/
theorem PeerText.length_count {env : CliEnv E A} {s : Text} {pubkey : PublicKey E} {addr : A}
    (h : PeerText env s pubkey addr) :
    (s.takeWhile fun c => c ≠ '@').length = 66 ∧ s.count '@' = 1 := by
  obtain ⟨digits, host, rfl, hlength, hdigits, hhost, -⟩ := h
  -- the digits are those of a key, so the first `@` is the one after them
  have hkey : '@' ∉ digits := by
    intro hmem
    have hlower : '@' ∈ pubkey.toText := by
      rw [← hdigits]
      exact List.mem_map.mpr ⟨'@', hmem, by decide⟩
    exact absurd (isAlphanum_of_mem_hexOfBytes hlower) (by decide)
  rw [takeWhile_at hkey, List.count_append, List.count_cons_self, List.count_eq_zero.mpr hkey,
    List.count_eq_zero.mpr hhost]
  exact ⟨hlength, rfl⟩

/-- **A peer that is accepted was read as a whole exactly if its key has 66 characters and there is
one `@`.**  For every string, every name resolution and every decoder of keys. -/
theorem peer_text_iff (hE : E.Standard) {env : CliEnv E A} {s : Text} {pubkey : PublicKey E}
    {addr : A} (h : parsePeerInfo env s = some (.ok (pubkey, addr))) :
    PeerText env s pubkey addr ↔
      (s.takeWhile fun c => c ≠ '@').length = 66 ∧ s.count '@' = 1 := by
  constructor
  · exact PeerText.length_count
  · obtain ⟨key, rest, rfl, hkey, hpubkey, host, others, ⟨more, hsplit⟩, haddr⟩ :=
      exists_parts_of_parsePeerInfo h
    rintro ⟨hlength, hcount⟩
    rw [takeWhile_at hkey] at hlength
    rw [List.count_append, List.count_cons_self, List.count_eq_zero.mpr hkey] at hcount
    have hrest : '@' ∉ rest := List.count_eq_zero.mp (by omega)
    rw [List.splitOn_eq_singleton hrest, List.cons.injEq] at hsplit
    obtain ⟨digits, tail, rfl, hdigitsLength, hdigits⟩ :=
      exists_digits_of_toCompressedPubkey hE hpubkey
    have htail : tail = [] := by
      rw [List.length_append] at hlength
      exact List.length_eq_zero_iff.mp (by omega)
    rw [htail, List.append_nil]
    exact ⟨digits, rest, rfl, hdigitsLength, hdigits, hrest, others, hsplit.1 ▸ haddr⟩

/-! ## Two strings for one peer -/

/-- Node 1 at an address. -/
def peerString : Text := firstKey.toText ++ "@127.0.0.1:9735".toList

/-- The same with digits after the key and a second `@`. -/
def paddedPeerString : Text := firstKey.toText ++ "ff@127.0.0.1:9735@10.0.0.1:9735".toList

/-- All of the first string is read. -/
theorem peer_text_sample : parsePeerInfo sampleEnv peerString = some (.ok (firstKey, ())) ∧
    PeerText sampleEnv peerString firstKey () := by
  have hok : parsePeerInfo sampleEnv peerString = some (.ok (firstKey, ())) := by rfl
  exact ⟨hok, (peer_text_iff standard_sampleKeys hok).mpr (by decide)⟩

/-- The second string is accepted for the same peer, though not all of it was read. -/
theorem peer_text_padded :
    parsePeerInfo sampleEnv paddedPeerString = some (.ok (firstKey, ())) ∧
      ¬ PeerText sampleEnv paddedPeerString firstKey () := by
  refine ⟨by rfl, fun h => ?_⟩
  exact absurd h.length_count.2 (by decide)

end HiddenLightning
