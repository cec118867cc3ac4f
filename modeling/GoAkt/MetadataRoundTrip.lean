import GoAkt.Frames

/-!
# Metadata over the wire

The number of headers and the lengths of their keys and values are written in two bytes each,
without a check. A decoder that reads shorter lengths than there are loses its place. What it reads
is always short, so nothing longer comes back.
-/
namespace GoAkt.Net
open GoAkt.FiniteMaps GoAkt.ByteStrings GoAkt.Fallible List

lemma uint_lt (bytes : Bytes) : uint bytes < 256 ^ bytes.length := by
  induction bytes using List.reverseRecOn with
  | nil => exact Nat.one_pos
  | append_singleton bytes b ih =>
    rw [uint_append_singleton, length_append, length_singleton, pow_succ]
    have hb := b.toNat_lt
    omega

lemma length_of_cut {data part : Bytes} {lo hi : ℕ} (h : cut data lo hi = .ok part) :
    part.length = hi - lo := by
  unfold cut slice at h
  split_ifs at h with hbounds
  cases h
  rw [length_drop, length_take, min_eq_left hbounds.2]

lemma uintAt_lt {width pos n : ℕ} {data : Bytes} (h : uintAt width data pos = .ok n) :
    n < 256 ^ width := by
  obtain ⟨field, hfield, hn⟩ := (bind_eq_ok ..).mp h
  have hlength := length_of_cut hfield
  rw [Nat.add_sub_cancel_left] at hlength
  rw [← (pure_eq_ok ..).mp hn, ← hlength]
  exact uint_lt field

namespace Metadata

/-- What two bytes can count. -/
def Short (headers : Map Bytes Bytes) : Prop :=
  ∀ k v, headers.lookup k = some v → k.length < 2 ^ 16 ∧ v.length < 2 ^ 16

def headerBytes (header : Sigma fun _ : Bytes => Bytes) : Bytes :=
  putUint 2 header.1.length ++ header.1 ++ putUint 2 header.2.length ++ header.2

/-- The headers are written and read back one after the other. -/
lemma unmarshalHeaders_flatMap (entries : List (Sigma fun _ : Bytes => Bytes))
    (hshort : ∀ e ∈ entries, e.1.length < 2 ^ 16 ∧ e.2.length < 2 ^ 16) (front rest : Bytes)
    (headers : Map Bytes Bytes) :
    unmarshalHeaders (front ++ (entries.flatMap headerBytes ++ rest)) entries.length front.length
        headers =
      .ok (entries.foldl (fun m header => m.insert header.1 header.2) headers,
        front.length + (entries.flatMap headerBytes).length) := by
  induction entries generalizing front headers with
  | nil => rfl
  | cons header entries ih =>
    obtain ⟨⟨hkey, hval⟩, hentries⟩ := forall_mem_cons.mp hshort
    obtain ⟨key, val⟩ := header
    have hnext := ih hentries (front ++ headerBytes ⟨key, val⟩) (headers.insert key val)
    rw [flatMap_cons, length_cons, foldl_cons]
    generalize entries.flatMap headerBytes = encoded at hnext ⊢
    simp only [headerBytes, append_assoc, length_append, length_putUint] at hnext ⊢
    generalize hdata : front ++ (putUint 2 key.length ++ (key ++ (putUint 2 val.length ++
      (val ++ (encoded ++ rest))))) = data at hnext ⊢
    have hlength : data.length = front.length + 2 + key.length + 2 + val.length +
        (encoded ++ rest).length := by
      rw [← hdata]
      simp only [length_append, length_putUint]
      omega
    have hkeyLen : uintAt 2 data front.length = .ok key.length :=
      hdata ▸ uintAt_append front _ rfl hkey
    have hkeyCut : cut data (front.length + 2) (front.length + 2 + key.length) = .ok key := by
      rw [← hdata, ← append_assoc]
      exact cut_append _ key _ (by simp) rfl
    have hvalLen : uintAt 2 data (front.length + 2 + key.length) = .ok val.length := by
      rw [← hdata, ← append_assoc, ← append_assoc]
      exact uintAt_append _ _ (by simp [add_assoc]) hval
    have hvalCut : cut data (front.length + 2 + key.length + 2)
        (front.length + 2 + key.length + 2 + val.length) = .ok val := by
      rw [← hdata, ← append_assoc, ← append_assoc, ← append_assoc]
      exact cut_append _ val _ (by simp [add_assoc]) rfl
    simp only [unmarshalHeaders, bind_eq_ok, failIf_eq_ok]
    refine ⟨(), by omega, _, hkeyLen, (), by omega, _, hkeyCut, (), by omega, _, hvalLen, (),
      by omega, _, hvalCut, ?_⟩
    rw [show front.length + 2 + key.length + 2 + val.length =
      front.length + (2 + (key.length + (2 + val.length))) by omega, hnext]
    simp only [add_assoc]

/-- What is read back is short, and there are no more headers than were counted. -/
lemma short_unmarshalHeaders {data : Bytes} {count pos pos' : ℕ}
    {headers headers' : Map Bytes Bytes}
    (h : unmarshalHeaders data count pos headers = .ok (headers', pos')) (hshort : Short headers) :
    Short headers' ∧ headers'.entries.length ≤ headers.entries.length + count := by
  induction count generalizing pos headers with
  | zero =>
    cases (pure_eq_ok ..).mp h
    exact ⟨hshort, le_rfl⟩
  | succ count ih =>
    simp only [unmarshalHeaders, bind_eq_ok, failIf_eq_ok] at h
    obtain ⟨-, -, keyLen, hkeyLen, -, -, key, hkey, -, -, valLen, hvalLen, -, -, val, hval,
      hrest⟩ := h
    have hklen := length_of_cut hkey
    have hvlen := length_of_cut hval
    have hk := uintAt_lt hkeyLen
    have hv := uintAt_lt hvalLen
    obtain ⟨hshort', hcount⟩ := ih hrest fun k v hlookup => by
      rw [lookup_insert_ite] at hlookup
      split_ifs at hlookup with heq
      · cases hlookup
        subst heq
        omega
      · exact hshort k v hlookup
    have hinsert : (headers.insert key val).entries.length ≤ headers.entries.length + 1 :=
      Nat.succ_le_succ (kerase_sublist key headers.entries).length_le
    exact ⟨hshort', by omega⟩

lemma remaining_eq_zero_iff (m : Metadata) (now : Int64) :
    m.remaining now = 0 ↔ m.deadlineNano = 0 := by
  unfold remaining
  split_ifs with hset hpassed
  · exact iff_of_false (by decide) hset
  · exact iff_of_false hpassed hset
  · exact iff_of_true rfl (not_not.mp hset)

lemma short_of_unmarshalBinary {data : Bytes} {now : Int64} {m : Metadata}
    (h : unmarshalBinary data now = .ok m) :
    m.headers.entries.length < 2 ^ 16 ∧ Short m.headers := by
  simp only [unmarshalBinary, bind_eq_ok, failIf_eq_ok, pure_eq_ok] at h
  obtain ⟨-, -, count, hcount, ⟨headers, pos⟩, hparse, -, -, remaining, -, rfl⟩ := h
  obtain ⟨hshort, hlength⟩ := short_unmarshalHeaders hparse nofun
  have hlt := uintAt_lt hcount
  exact ⟨hlength.trans_lt (by simpa using hlt), hshort⟩

/-- What is written for short metadata is read back. -/
lemma unmarshalBinary_marshalBinary (m : Metadata) (sent received : Int64)
    (hcount : m.headers.entries.length < 2 ^ 16) (hshort : Short m.headers) :
    unmarshalBinary (m.marshalBinary sent) received =
      .ok ⟨m.headers.entries.foldl (fun acc header => acc.insert header.1 header.2) ∅,
        if m.remaining sent ≠ 0 then received + m.remaining sent else 0⟩ := by
  have hparse := unmarshalHeaders_flatMap m.headers.entries
    (fun e he => hshort e.1 e.2 ((mem_entries_iff_lookup ..).mp he))
    (putUint 2 m.headers.entries.length) (putUint 8 (m.remaining sent).toUInt64.toNat) ∅
  have htime : uintAt 8 _ _ = _ := uintAt_append (putUint 2 m.headers.entries.length ++
    m.headers.entries.flatMap headerBytes) [] rfl (UInt64.toNat_lt (m.remaining sent).toUInt64)
  have hdata : m.marshalBinary sent = putUint 2 m.headers.entries.length ++
      (m.headers.entries.flatMap headerBytes ++ putUint 8 (m.remaining sent).toUInt64.toNat) :=
    append_assoc ..
  have hlen : uintAt 2 (m.marshalBinary sent) 0 = .ok m.headers.entries.length :=
    hdata ▸ uintAt_append [] _ rfl hcount
  have hlength := congrArg length hdata
  rw [append_nil, append_assoc, length_append, ← hdata] at htime
  rw [← hdata] at hparse
  simp only [length_append, length_putUint] at hparse htime hlength
  simp only [unmarshalBinary, bind_eq_ok, failIf_eq_ok, pure_eq_ok]
  refine ⟨(), by omega, _, hlen, _, hparse, (), by omega, _, htime, ?_⟩
  rw [UInt64.ofNat_toNat, Int64.toInt64_toUInt64]

/-- Metadata come back with the same headers, and with the time that the sender had left on the
receiver's clock if a deadline was set, if and only if two bytes can count the headers and each key
and value, and the new deadline is not the one that stands for none. -/
theorem unmarshal_marshal_iff (m : Metadata) (sent received : Int64) :
    (∃ m', unmarshalBinary (m.marshalBinary sent) received = .ok m' ∧
      (∀ k, m'.headers.lookup k = m.headers.lookup k) ∧
      (m.deadlineNano = 0 → m'.deadlineNano = 0) ∧
      (m.deadlineNano ≠ 0 → m'.deadlineNano = received + m.remaining sent ∧ m'.deadlineNano ≠ 0)) ↔
    m.headers.entries.length < 2 ^ 16 ∧ Short m.headers ∧
      (m.deadlineNano ≠ 0 → received + m.remaining sent ≠ 0) := by
  constructor
  · rintro ⟨m', hm', hheaders, -, hdeadline⟩
    obtain ⟨hlength, hshort⟩ := short_of_unmarshalBinary hm'
    have hkeys : m.headers.keys.Perm m'.headers.keys := by
      refine (perm_ext_iff_of_nodup m.headers.keys_nodup m'.headers.keys_nodup).mpr fun k => ?_
      rw [mem_keys_iff_lookup, mem_keys_iff_lookup, ← hheaders k]
    have hsame : m.headers.entries.length = m'.headers.entries.length := by
      simpa [AList.keys, List.keys] using hkeys.length_eq
    exact ⟨hsame ▸ hlength, fun k v hk => hshort k v ((hheaders k).trans hk),
      fun hset => (hdeadline hset).1 ▸ (hdeadline hset).2⟩
  · rintro ⟨hcount, hshort, hdeadline⟩
    refine ⟨_, unmarshalBinary_marshalBinary m sent received hcount hshort, fun k => ?_,
      fun hnone => ?_, fun hset => ?_⟩
    · refine (lookup_foldl_own (fun acc k v => acc.insert k v) (fun _ v _ => some v)
        (fun acc k v j => lookup_insert_ite acc k j v) m.headers ∅ k).trans ?_
      cases m.headers.lookup k <;> rfl
    · exact if_neg (not_not.mpr ((remaining_eq_zero_iff m sent).mpr hnone))
    · have hleft := mt (remaining_eq_zero_iff m sent).mp hset
      exact ⟨if_pos hleft, (if_pos hleft).trans_ne (hdeadline hset)⟩

/-- One header, with a key of 65536 bytes. -/
def longKey : Metadata := ⟨(∅ : Map Bytes Bytes).insert (replicate (2 ^ 16) 0) [], 0⟩

/-- The key is not among the headers that come back. -/
theorem long_key_lost :
    longKey.headers.lookup (replicate (2 ^ 16) 0) = some [] ∧
      ∀ sent received m, unmarshalBinary (longKey.marshalBinary sent) received = .ok m →
        m.headers.lookup (replicate (2 ^ 16) 0) = none := by
  refine ⟨AList.lookup_insert _, fun sent received m h => ?_⟩
  refine Option.eq_none_iff_forall_ne_some.mpr fun v hv => ?_
  have hlt := ((short_of_unmarshalBinary h).2 _ v hv).1
  rw [length_replicate] at hlt
  exact lt_irrefl _ hlt

end Metadata
end GoAkt.Net
