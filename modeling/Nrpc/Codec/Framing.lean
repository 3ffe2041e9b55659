import Mathlib.Algebra.Group.Nat.Defs
import Nrpc.Codec.Model.Packet
/-!
# The packet decoder is its framing grammar

`Decode` is a loop over a buffer with a header read ahead. It is shown
to be the scan of one scanner, `pomelo` (`decode_eq_scan`), whose frames
are the encoder's output (`peel_eq_frame_iff`), so that what the decoder
accepts and what it refuses are read off the grammar. The length field
has three bytes and the limit is `1 << 24`, so the size check of
`ParseHeader` never fires (`parseHeader_ne_packetSizeExcced`), and the one
of `Encode` admits a length that the field cannot hold
(`parseHeader_encode_iff`).
-/

namespace Nrpc

namespace Codec

variable {buf rest payload : List UInt8} {p : Packet} {ps : List Packet}

/-! ## The header -/

/-- The types the codec admits. -/
def Admitted (typ : UInt8) : Prop := handshake ≤ typ ∧ typ ≤ data

instance (typ : UInt8) : Decidable (Admitted typ) := inferInstanceAs (Decidable (_ ∧ _))

theorem not_admitted_iff {typ : UInt8} :
    (typ < handshake ∨ typ > data) ↔ ¬ Admitted typ := by
  simp only [Admitted, UInt8.le_iff_toNat_le, UInt8.lt_iff_toNat_lt, gt_iff_lt]
  omega

/-- The length field, as a number. -/
theorem bytesToInt_three (a b c : UInt8) :
    bytesToInt [a, b, c] = a.toNat * 65536 + b.toNat * 256 + c.toNat := by
  simp only [bytesToInt, List.foldl, Nat.shiftLeft_eq]
  omega

theorem bytesToInt_three_lt (a b c : UInt8) : bytesToInt [a, b, c] < 2 ^ 24 := by
  rw [bytesToInt_three]
  have ha := a.toNat_lt
  have hb := b.toNat_lt
  have hc := c.toNat_lt
  omega

/-- **Four bytes are a header as soon as their type is admitted.** -/
theorem parseHeader_four (typ a b c : UInt8) :
    parseHeader [typ, a, b, c] =
      if Admitted typ then .ok (bytesToInt [a, b, c], typ) else .error .wrongPomeloPacketType := by
  have hmax : ¬ bytesToInt [a, b, c] > maxPacketSize := by
    have := bytesToInt_three_lt a b c
    simp only [maxPacketSize, Nat.shiftLeft_eq]
    omega
  simp only [parseHeader, headLength, List.length_cons, List.length_nil, List.headD_cons,
    List.tail_cons, not_admitted_iff]
  by_cases h : Admitted typ <;> simp [h, Nat.not_lt.1 hmax]

/-- A buffer with a header's worth of bytes starts with four of them. -/
theorem exists_four (h : ¬ buf.length < headLength) :
    ∃ typ a b c tail, buf = typ :: a :: b :: c :: tail := by
  match buf, h with
  | typ :: a :: b :: c :: tail, _ => exact ⟨typ, a, b, c, tail, rfl⟩
  | [], h | [_], h | [_, _], h | [_, _, _], h => exact absurd h (by simp [headLength])

/-- **The size check of `ParseHeader` never fires.** -/
theorem parseHeader_ne_packetSizeExcced (header : List UInt8) :
    parseHeader header ≠ .error .packetSizeExcced := by
  by_cases hlen : header.length = headLength
  · have hfour : ¬ header.length < headLength := by
      rw [hlen]
      omega
    obtain ⟨typ, a, b, c, tail, rfl⟩ := exists_four hfour
    have htail : tail = [] := by
      rw [← List.length_eq_zero_iff]
      simp only [List.length_cons, headLength] at hlen
      omega
    subst htail
    rw [parseHeader_four]
    split <;> simp
  · simp [parseHeader, hlen]

/-- The length field holds a length up to multiples of `2 ^ 24`. -/
theorem intToBytes_eq (n : ℕ) : ∃ a b c, intToBytes n = [a, b, c] ∧
    bytesToInt [a, b, c] = n % 2 ^ 24 := by
  refine ⟨_, _, _, rfl, ?_⟩
  have hand : ∀ m : ℕ, m &&& 0xFF = m % 256 := fun m => Nat.and_two_pow_sub_one_eq_mod m 8
  simp only [bytesToInt_three, hand, UInt8.toNat_ofNat', Nat.shiftRight_eq_div_pow]
  omega

/-- And three bytes are the field of the length they declare. -/
theorem intToBytes_bytesToInt (a b c : UInt8) : intToBytes (bytesToInt [a, b, c]) = [a, b, c] := by
  have hand : ∀ m : ℕ, m &&& 0xFF = m % 256 := fun m => Nat.and_two_pow_sub_one_eq_mod m 8
  have ha := a.toNat_lt
  have hb := b.toNat_lt
  have hc := c.toNat_lt
  simp only [intToBytes, bytesToInt_three, hand, Nat.shiftRight_eq_div_pow, List.cons.injEq,
    and_true, ← UInt8.toNat_inj, UInt8.toNat_ofNat']
  omega

/-! ## The decoder as a scan -/

/-- The packet scanner: a header's worth of bytes, then its payload. -/
def pomelo : Scanner UInt8 Packet CodecError where
  peel buf :=
    if buf.length < headLength then .hold
    else match parseHeader (buf.take headLength) with
      | .error e => .bad e
      | .ok (size, typ) =>
        if size ≤ (buf.drop headLength).length then
          .frame ⟨typ, size, (buf.drop headLength).take size⟩ ((buf.drop headLength).drop size)
        else .hold
  shrinks := by
    intro buf p rest h
    split at h
    · cases h
    · rename_i hlen
      split at h
      · cases h
      · split at h
        · cases h
          simp only [headLength, List.length_drop] at hlen ⊢
          omega
        · cases h

theorem pomelo_peel (buf : List UInt8) : pomelo.peel buf =
    if buf.length < headLength then .hold
    else match parseHeader (buf.take headLength) with
      | .error e => .bad e
      | .ok (size, typ) =>
        if size ≤ (buf.drop headLength).length then
          .frame ⟨typ, size, (buf.drop headLength).take size⟩ ((buf.drop headLength).drop size)
        else .hold := rfl

/-- The scanner's reading of a buffer that starts with four bytes. -/
theorem peel_four (typ a b c : UInt8) (tail : List UInt8) :
    pomelo.peel (typ :: a :: b :: c :: tail) =
      if Admitted typ then
        if bytesToInt [a, b, c] ≤ tail.length then
          .frame ⟨typ, bytesToInt [a, b, c], tail.take (bytesToInt [a, b, c])⟩
            (tail.drop (bytesToInt [a, b, c]))
        else .hold
      else .bad .wrongPomeloPacketType := by
  have hshort : ¬ (typ :: a :: b :: c :: tail).length < headLength := by simp [headLength]
  rw [pomelo_peel, if_neg hshort]
  simp only [headLength, List.take_succ_cons, List.take_zero, List.drop_succ_cons,
    List.drop_zero, parseHeader_four]
  by_cases hadm : Admitted typ <;> simp [hadm]

/-- The loop has one header in hand: if its payload is there the packet
is kept and the scan goes on behind it. -/
theorem decodeLoop_eq (size : ℕ) (typ : UInt8) (buf : List UInt8) (packets : List Packet) :
    decodeLoop size typ buf packets =
      if size ≤ buf.length then
        (pomelo.scan (buf.drop size)).map ((packets ++ [⟨typ, size, buf.take size⟩]) ++ ·)
      else .ok packets := by
  -- on the bytes left: a turn of the loop uses up a payload and the next header
  induction hn : buf.length using Nat.strongRecOn generalizing size typ buf packets with
  | ind n ih =>
    subst hn
    rw [decodeLoop]
    by_cases hsize : size ≤ buf.length
    · simp only [if_pos hsize]
      by_cases hshort : (buf.drop size).length < headLength
      · have hhold : pomelo.peel (buf.drop size) = .hold := by rw [pomelo_peel, if_pos hshort]
        rw [if_pos hshort, Scanner.scan_hold hhold]
        simp [Except.map]
      · rw [if_neg hshort, Scanner.scan_eq, pomelo_peel, if_neg hshort]
        simp only [forward]
        rcases hhead : parseHeader ((buf.drop size).take headLength) with e | ⟨size', typ'⟩
        · rfl
        · have hlt : ((buf.drop size).drop headLength).length < buf.length := by
            simp only [headLength, List.length_drop] at hshort ⊢
            omega
          simp only
          rw [ih _ hlt _ _ _ _ rfl]
          split
          · simp only
            rcases pomelo.scan (((buf.drop size).drop headLength).drop size') with e | qs
            · rfl
            · simp [Except.map]
          · simp [Except.map]
    · simp only [if_neg hsize]

/-- **The decoder is the scan.** -/
theorem decode_eq_scan (buf : List UInt8) : decode buf = pomelo.scan buf := by
  rw [decode, Scanner.scan_eq, pomelo_peel]
  by_cases hshort : buf.length < headLength
  · simp [if_pos hshort]
  · simp only [if_neg hshort, forward]
    rcases parseHeader (buf.take headLength) with e | ⟨size, typ⟩
    · rfl
    · simp only [decodeLoop_eq]
      split <;> rfl

/-! ## Frames are encodings -/

/-- A packet the length field can carry, with its length declared
truly. -/
def Sized (p : Packet) : Prop := p.data.length < 2 ^ 24 ∧ p.length = p.data.length

/-- The concatenation of the packets' encodings. -/
def encodeAll : List Packet → Except CodecError (List UInt8)
  | [] => .ok []
  | p :: ps => do
    let head ← encode p.type p.data
    let tail ← encodeAll ps
    return head ++ tail

theorem encode_eq_ok_iff {typ : UInt8} {bs : List UInt8} (hlen : payload.length < 2 ^ 24) :
    encode typ payload = .ok bs ↔
      Admitted typ ∧ bs = typ :: intToBytes payload.length ++ payload := by
  have hmax : ¬ payload.length > maxPacketSize := by
    simp only [maxPacketSize, Nat.shiftLeft_eq]
    omega
  simp only [encode, not_admitted_iff, if_neg hmax]
  by_cases h : Admitted typ <;> simp [h, eq_comm]

/-- **A frame is the encoding of a sized packet**, and every such
encoding at the front of a buffer is peeled as that packet. -/
theorem peel_eq_frame_iff : pomelo.peel buf = .frame p rest ↔
    ∃ bs, encode p.type p.data = .ok bs ∧ Sized p ∧ buf = bs ++ rest := by
  constructor
  · intro h
    by_cases hshort : buf.length < headLength
    · rw [pomelo_peel, if_pos hshort] at h
      cases h
    obtain ⟨typ, a, b, c, tail, rfl⟩ := exists_four hshort
    rw [peel_four] at h
    split at h
    · rename_i hadm
      split at h
      · rename_i hfit
        cases h
        -- three bytes are the length field of the payload they declare
        have hlen : (tail.take (bytesToInt [a, b, c])).length = bytesToInt [a, b, c] := by
          rw [List.length_take]
          omega
        have hlt : (tail.take (bytesToInt [a, b, c])).length < 2 ^ 24 := by
          rw [hlen]
          exact bytesToInt_three_lt a b c
        refine ⟨_, (encode_eq_ok_iff hlt).2 ⟨hadm, rfl⟩, ⟨hlt, hlen.symm⟩, ?_⟩
        rw [hlen, intToBytes_bytesToInt]
        simp
      · cases h
    · cases h
  · rintro ⟨bs, henc, ⟨hlt, hlen⟩, rfl⟩
    obtain ⟨hadm, rfl⟩ := (encode_eq_ok_iff hlt).1 henc
    -- and the length field of an encoding declares the payload behind it
    obtain ⟨a, b, c, habc, hval⟩ := intToBytes_eq p.data.length
    rw [Nat.mod_eq_of_lt hlt] at hval
    have hfit : bytesToInt [a, b, c] ≤ (p.data ++ rest).length := by
      rw [hval, List.length_append]
      omega
    rw [habc]
    simp only [List.cons_append, List.nil_append]
    rw [peel_four, if_pos hadm, if_pos hfit, hval, List.take_left, List.drop_left, ← hlen]

/-- **The frames of a buffer are the packets whose encodings it starts
with.** -/
theorem peels_iff : pomelo.Peels buf ps rest ↔
    ∃ bs, encodeAll ps = .ok bs ∧ (∀ p ∈ ps, Sized p) ∧ buf = bs ++ rest := by
  constructor
  · intro h
    induction h with
    | nil buf => exact ⟨[], rfl, by simp, by simp⟩
    | @cons buf mid rest p ps hp _ ih =>
      obtain ⟨tail, htail, hsized, rfl⟩ := ih
      obtain ⟨head, hhead, hfirst, rfl⟩ := peel_eq_frame_iff.1 hp
      refine ⟨head ++ tail, ?_, ?_, by simp⟩
      · rw [encodeAll, hhead, htail]
        rfl
      · intro q hq
        rcases List.mem_cons.1 hq with rfl | hq
        · exact hfirst
        · exact hsized q hq
  · induction ps generalizing buf with
    | nil =>
      rintro ⟨bs, hbs, -, rfl⟩
      cases hbs
      exact .nil rest
    | cons p ps ih =>
      rintro ⟨bs, hbs, hsized, rfl⟩
      -- the whole encodes only if the first packet and the rest do
      rcases hhead : encode p.type p.data with e | head
      · rw [encodeAll, hhead] at hbs
        cases hbs
      rcases htail : encodeAll ps with e | tail
      · rw [encodeAll, hhead, htail] at hbs
        cases hbs
      rw [encodeAll, hhead, htail] at hbs
      cases hbs
      have hps : pomelo.Peels (tail ++ rest) ps rest :=
        ih ⟨tail, htail, fun q hq => hsized q (List.mem_cons_of_mem p hq), rfl⟩
      refine .cons (peel_eq_frame_iff.2 ⟨head, hhead, ?_, ?_⟩) hps
      · exact hsized p List.mem_cons_self
      · rw [List.append_assoc]

/-! ## Where the decoder stops -/

/-- **An incomplete tail**: no header yet, or a header of an admitted
type that declares more payload than is there. -/
def Incomplete (rest : List UInt8) : Prop :=
  rest.length < 4 ∨ ∃ typ a b c tail, rest = typ :: a :: b :: c :: tail ∧ 1 ≤ typ ∧ typ ≤ 4 ∧
    tail.length < a.toNat * 65536 + b.toNat * 256 + c.toNat

/-- **A bad header**: four bytes or more, the first of them not a packet
type. -/
def BadHeader (rest : List UInt8) : Prop :=
  4 ≤ rest.length ∧ ∃ typ tail, rest = typ :: tail ∧ ¬ (1 ≤ typ ∧ typ ≤ 4)

theorem peel_eq_hold_iff : pomelo.peel rest = .hold ↔ Incomplete rest := by
  by_cases hshort : rest.length < headLength
  · rw [pomelo_peel, if_pos hshort]
    exact ⟨fun _ => Or.inl hshort, fun _ => rfl⟩
  · obtain ⟨typ, a, b, c, tail, rfl⟩ := exists_four hshort
    rw [peel_four]
    constructor
    · intro h
      split at h
      · rename_i hadm
        split at h
        · cases h
        · rename_i hfit
          rw [bytesToInt_three] at hfit
          exact Or.inr ⟨typ, a, b, c, tail, rfl, hadm.1, hadm.2, by omega⟩
      · cases h
    · rintro (h | ⟨_, _, _, _, _, heq, hlo, hhi, hfit⟩)
      · exact absurd h hshort
      · cases heq
        have hfit' : ¬ bytesToInt [a, b, c] ≤ tail.length := by
          rw [bytesToInt_three]
          omega
        rw [if_pos (show Admitted typ from ⟨hlo, hhi⟩), if_neg hfit']

theorem peel_eq_bad_iff {e : CodecError} :
    pomelo.peel rest = .bad e ↔ BadHeader rest ∧ e = .wrongPomeloPacketType := by
  by_cases hshort : rest.length < headLength
  · rw [pomelo_peel, if_pos hshort]
    refine ⟨fun h => (by cases h), fun h => absurd h.1.1 ?_⟩
    simp only [headLength] at hshort
    omega
  · obtain ⟨typ, a, b, c, tail, rfl⟩ := exists_four hshort
    rw [peel_four]
    constructor
    · intro h
      split at h
      · split at h <;> cases h
      · rename_i hadm
        cases h
        exact ⟨⟨by simp, typ, _, rfl, hadm⟩, rfl⟩
    · rintro ⟨⟨-, _, _, heq, hadm⟩, rfl⟩
      cases heq
      rw [if_neg (show ¬ Admitted typ from hadm)]

/-- **The decoder is exactly the framing grammar.** It succeeds with
`ps` just where the buffer is the encodings of `ps` and an incomplete
tail, it fails just where a run of encodings is followed by a bad
header, and then with the error of a wrong type: the size error of
`ParseHeader` is unreachable, from `Decode` and from any header. -/
theorem decode_framing (buf : List UInt8) :
    (∀ ps, decode buf = .ok ps ↔
      ∃ bs rest, encodeAll ps = .ok bs ∧
        (∀ p ∈ ps, p.data.length < 2 ^ 24 ∧ p.length = p.data.length) ∧
        buf = bs ++ rest ∧ Incomplete rest) ∧
    ((∃ e, decode buf = .error e) ↔
      ∃ ps bs rest, encodeAll ps = .ok bs ∧
        (∀ p ∈ ps, p.data.length < 2 ^ 24 ∧ p.length = p.data.length) ∧
        buf = bs ++ rest ∧ BadHeader rest) ∧
    decode buf ≠ .error .packetSizeExcced ∧
    ∀ header, parseHeader header ≠ .error .packetSizeExcced := by
  refine ⟨fun ps => ?_, ?_, ?_, parseHeader_ne_packetSizeExcced⟩
  · rw [decode_eq_scan, Scanner.scan_eq_ok_iff]
    constructor
    · rintro ⟨rest, hps, hhold⟩
      obtain ⟨bs, hbs, hsized, hbuf⟩ := peels_iff.1 hps
      exact ⟨bs, rest, hbs, hsized, hbuf, peel_eq_hold_iff.1 hhold⟩
    · rintro ⟨bs, rest, hbs, hsized, hbuf, hinc⟩
      exact ⟨rest, peels_iff.2 ⟨bs, hbs, hsized, hbuf⟩, peel_eq_hold_iff.2 hinc⟩
  · constructor
    · rintro ⟨e, he⟩
      rw [decode_eq_scan, Scanner.scan_eq_error_iff] at he
      obtain ⟨ps, rest, hps, hbad⟩ := he
      obtain ⟨bs, hbs, hsized, hbuf⟩ := peels_iff.1 hps
      exact ⟨ps, bs, rest, hbs, hsized, hbuf, (peel_eq_bad_iff.1 hbad).1⟩
    · rintro ⟨ps, bs, rest, hbs, hsized, hbuf, hbad⟩
      refine ⟨.wrongPomeloPacketType, ?_⟩
      rw [decode_eq_scan, Scanner.scan_eq_error_iff]
      exact ⟨ps, rest, peels_iff.2 ⟨bs, hbs, hsized, hbuf⟩, peel_eq_bad_iff.2 ⟨hbad, rfl⟩⟩
  · rw [decode_eq_scan]
    intro h
    obtain ⟨ps, rest, -, hbad⟩ := Scanner.scan_eq_error_iff.1 h
    exact absurd (peel_eq_bad_iff.1 hbad).2 (by decide)

/-! ## The size guard -/

/-- **The header of an encoded packet** says its type, and its length up to
multiples of `2 ^ 24`. -/
theorem parseHeader_of_encode {typ : UInt8} {bs : List UInt8} (h : encode typ payload = .ok bs) :
    payload.length ≤ 2 ^ 24 ∧
      parseHeader (bs.take headLength) = .ok (payload.length % 2 ^ 24, typ) := by
  unfold encode at h
  split at h
  · cases h
  · rename_i htyp
    split at h
    · cases h
    · rename_i hmax
      obtain rfl := Except.ok.inj h
      obtain ⟨a, b, c, habc, hval⟩ := intToBytes_eq payload.length
      refine ⟨by simpa [maxPacketSize, Nat.shiftLeft_eq] using hmax, ?_⟩
      rw [not_admitted_iff, not_not] at htyp
      have htake : (typ :: intToBytes payload.length ++ payload).take headLength =
          [typ, a, b, c] := by
        rw [habc]
        rfl
      rw [htake, parseHeader_four, if_pos htyp, hval]

/-- **The size guard lets one length too many pass.** What `Encode` writes
is read back by `ParseHeader` with the payload's length and type, except
for a payload of exactly `2 ^ 24` bytes. -/
theorem parseHeader_encode_iff (typ : UInt8) (payload bs : List UInt8)
    (h : encode typ payload = .ok bs) :
    parseHeader (bs.take headLength) = .ok (payload.length, typ) ↔ payload.length ≠ 2 ^ 24 := by
  obtain ⟨hle, hheader⟩ := parseHeader_of_encode h
  rw [hheader]
  constructor
  · intro heq hlen
    have hzero : payload.length % 2 ^ 24 = payload.length := by
      injection heq with hpair
      exact congrArg Prod.fst hpair
    rw [hlen] at hzero
    omega
  · intro hne
    rw [Nat.mod_eq_of_lt (by omega)]

/-- A payload of one byte. -/
theorem parseHeader_encode_iff_one :
    ∃ bs, encode data [0x2A] = .ok bs ∧ parseHeader (bs.take headLength) = .ok (1, data) :=
  ⟨_, rfl, (parseHeader_encode_iff data [0x2A] _ rfl).2 (by decide)⟩

/-- **A payload as long as the limit** is encoded, and its header says that
there is none. -/
theorem encode_limit_reads_empty :
    ∃ payload bs, payload.length = maxPacketSize ∧ encode data payload = .ok bs ∧
      parseHeader (bs.take headLength) = .ok (0, data) := by
  have hlen : (List.replicate maxPacketSize (0 : UInt8)).length = maxPacketSize :=
    List.length_replicate
  obtain ⟨bs, hbs⟩ : ∃ bs, encode data (List.replicate maxPacketSize 0) = .ok bs := by
    rw [encode, if_neg (by decide), if_neg (by rw [hlen]; exact Nat.lt_irrefl _)]
    exact ⟨_, rfl⟩
  have hheader := (parseHeader_of_encode hbs).2
  rw [hlen] at hheader
  exact ⟨_, bs, hlen, hbs, hheader⟩

end Codec

end Nrpc
