import Nrpc.Common.Varint
import Nrpc.Messages.Model.Message
import Nrpc.Messages.Dictionary
import Mathlib.Tactic.Ring
/-!
# Decoding what was encoded

The fields of an encoding are laid end to end, so each is read back on
its own: the flag byte by its bits, the id by the base-128 reading, the
route by its length or through the dictionary. `exists_decode_encode`
assembles them.
-/

namespace Nrpc

namespace Messages

variable {z : Zlib} {dict : Dictionary} {m : Message}

/-! ## The id field -/

theorem toNat_shr7 (n : UInt64) : (n >>> 7).toNat = n.toNat / 128 := by
  rw [UInt64.toNat_shiftRight]
  simp [Nat.shiftRight_eq_div_pow]

/-- **The id loop of `Encode` writes base 128.** -/
theorem encodeID_eq (n : UInt64) : encodeID n = Varint.digits n.toNat := by
  induction n using encodeID.induct with
  | case1 n rest hne ih =>
    -- another turn: the low digit with its continuation bit
    have hrest : rest.toNat = n.toNat / 128 := toNat_shr7 n
    have hge : ¬ n.toNat < 128 := by
      intro hlt
      refine hne (UInt64.toNat_inj.1 ?_)
      rw [hrest]
      simpa using hlt
    rw [encodeID, if_pos hne, Varint.digits, if_neg hge]
    simp only [List.cons.injEq]
    refine ⟨UInt8.toNat_inj.1 ?_, by rw [← hrest]; exact ih⟩
    simp only [UInt8.toNat_add, UInt64.toNat_toUInt8, UInt64.toNat_mod, UInt8.toNat_ofNat']
    simp
  | case2 n rest heq =>
    have hrest : rest.toNat = n.toNat / 128 := toNat_shr7 n
    have hlt : n.toNat < 128 := by
      have h0 : rest = 0 := by simpa using heq
      rw [h0] at hrest
      simp at hrest
      omega
    rw [encodeID, if_neg heq, Varint.digits, if_pos hlt]
    simp only [List.cons.injEq, and_true]
    refine UInt8.toNat_inj.1 ?_
    simp only [UInt64.toNat_toUInt8, UInt64.toNat_mod, UInt8.toNat_ofNat']
    simp
    omega

/-- A turn of the id loop adds the next digit, modulo `2 ^ 64`. -/
theorem shl_digit (b : UInt8) (k : ℕ) :
    shl (b &&& 0x7F) (7 * k) = UInt64.ofNat (b.toNat % 128 * 128 ^ k) := by
  have hand : (b &&& 0x7F).toNat = b.toNat % 128 := by
    rw [UInt8.toNat_and]
    exact Nat.and_two_pow_sub_one_eq_mod b.toNat 7
  rw [shl, hand, Nat.shiftLeft_eq, Nat.pow_mul]

/-- **The id loop of `Decode` reads a closed base-128 number**, modulo
`2 ^ 64`, and stops right behind it. -/
theorem decodeIDLoop_run {run : List UInt8} {last : UInt8} (rest : List UInt8)
    (hrun : Varint.Run run) (hlast : last.toNat < 128) (k : ℕ) (id : UInt64) :
    decodeIDLoop (run ++ last :: rest) k id =
      (id + UInt64.ofNat (Varint.value (run ++ [last]) * 128 ^ k), some (k + run.length + 1)) := by
  induction run generalizing k id with
  | nil =>
    have hlt : last < 128 := UInt8.lt_iff_toNat_lt.2 hlast
    simp [decodeIDLoop, hlt, shl_digit, Varint.value]
  | cons b run ih =>
    have hb : ¬ b < 128 := by
      have := hrun b List.mem_cons_self
      rw [UInt8.lt_iff_toNat_lt]
      simp
      omega
    simp only [List.cons_append, decodeIDLoop, if_neg hb, shl_digit]
    rw [ih (fun c hc => hrun c (List.mem_cons_of_mem b hc))]
    simp only [Varint.value, List.length_cons, Prod.mk.injEq, Option.some.injEq]
    refine ⟨?_, by omega⟩
    rw [UInt64.add_assoc, ← UInt64.ofNat_add]
    congr 2
    ring

/-- **The id an encoding carries is read back.** -/
theorem decodeID_encodeID (l r : List UInt8) (n : UInt64) :
    decodeID (l ++ (encodeID n ++ r)) l.length = (n, l.length + (encodeID n).length) := by
  obtain ⟨run, last, heq, hrun, hlast⟩ := Varint.digits_eq_run n.toNat
  have hval : Varint.value (run ++ [last]) = n.toNat := by rw [← heq, Varint.value_digits]
  rw [decodeID, List.drop_left, encodeID_eq, heq, List.append_assoc, List.singleton_append,
    decodeIDLoop_run r hrun hlast, hval]
  simp

/-! ## The route field -/

/-- A dictionary code survives its two bytes. -/
theorem code_bytes (code : UInt16) :
    ((code >>> 8) &&& 0xFF).toUInt8.toUInt16 <<< 8 ||| (code &&& 0xFF).toUInt8.toUInt16 =
      code := by
  have hand : ∀ n : ℕ, n &&& 255 = n % 256 := fun n => Nat.and_two_pow_sub_one_eq_mod n 8
  have hlt := code.toNat_lt
  refine UInt16.toNat_inj.1 ?_
  simp only [UInt16.toNat_or, UInt16.toNat_shiftLeft, UInt8.toNat_toUInt16, UInt16.toNat_toUInt8,
    UInt16.toNat_and, UInt16.toNat_shiftRight, UInt16.reduceToNat, Nat.reduceMod, hand,
    Nat.shiftRight_eq_div_pow, Nat.shiftLeft_eq]
  have hhi : code.toNat / 2 ^ 8 % 256 % 2 ^ 8 * 2 ^ 8 % 2 ^ 16 = 2 ^ 8 * (code.toNat / 256) := by
    omega
  have hlo : code.toNat % 256 % 2 ^ 8 < 2 ^ 8 := by omega
  rw [hhi, ← Nat.two_pow_add_eq_or_of_lt hlo]
  omega

/-- **The route an encoding carries is read back**, in either form: a
code through the mirrored maps, a written-out route by its length. -/
theorem decodeRoute_encodeRoute (hm : dict.Mirrored) {flag : UInt8} {route : GoString}
    (hflag : flag &&& msgRouteCompressMask = 1 ↔ (dict.routes.get? route).isSome)
    (hlen : (dict.routes.get? route).isSome ∨ route.length ≤ 255) (l r : List UInt8) :
    decodeRoute dict flag (l ++ (encodeRoute (dict.routes.get? route) route ++ r)) l.length =
      .ok (route, (dict.routes.get? route).isSome,
        l.length + (encodeRoute (dict.routes.get? route) route).length) := by
  rw [decodeRoute]
  rcases hcode : dict.routes.get? route with - | code
  · -- written out behind its length byte, which holds the length
    simp only [hcode, Option.isSome_none, Bool.false_eq_true, iff_false, false_or] at hflag hlen
    have hrl : (UInt8.ofNat route.length).toNat = route.length := by
      rw [UInt8.toNat_ofNat']
      omega
    have hslice := Outcome.slice_append (ε := MessageError)
      (l ++ [UInt8.ofNat route.length]) route r
    simp only [List.length_append, List.length_cons, List.length_nil, Nat.zero_add,
      List.append_assoc, List.cons_append, List.nil_append] at hslice
    have hfit : ¬ (l.length + 1 > (l ++ (UInt8.ofNat route.length :: route ++ r)).length ∨
        l.length + 1 + route.length > (l ++ (UInt8.ofNat route.length :: route ++ r)).length) := by
      simp only [List.length_append, List.length_cons]
      omega
    simp only [if_neg hflag, encodeRoute, List.cons_append] at hfit ⊢
    rw [Outcome.index_append_cons]
    simp only [Outcome.ok_bind, hrl, if_neg hfit, hslice, Outcome.pure_eq, Option.isSome_none,
      List.length_cons, Outcome.ok.injEq, Prod.mk.injEq, true_and]
    omega
  · -- two bytes of a code, which the other map leads back
    simp only [hcode, Option.isSome_some, iff_true] at hflag
    have hslice := Outcome.slice_append (ε := MessageError) l
      [((code >>> 8) &&& 0xFF).toUInt8, (code &&& 0xFF).toUInt8] r
    simp only [List.length_cons, List.length_nil, Nat.zero_add, List.append_assoc] at hslice
    have hfit : ¬ (l.length > (l ++ (encodeRoute (some code) route ++ r)).length ∨
        l.length + 2 > (l ++ (encodeRoute (some code) route ++ r)).length) := by
      simp only [encodeRoute, List.length_append, List.length_cons, List.length_nil]
      omega
    simp only [if_pos hflag, if_neg hfit]
    simp only [encodeRoute, hslice, Outcome.ok_bind, Outcome.index, List.getElem?_cons_zero,
      List.getElem?_cons_succ, code_bytes, (hm _ _).1 hcode, Option.isSome_some, List.length_cons,
      List.length_nil, Nat.zero_add]

/-! ## The flag byte -/

/-- The three message types. -/
theorem type_cases {t : UInt8} (h : invalidType t = false) :
    t = request ∨ t = notify ∨ t = response := by
  have hle : t.toNat ≤ 2 := by
    simp only [invalidType, response, Bool.or_eq_false_iff, decide_eq_false_iff_not,
      UInt8.lt_iff_toNat_lt, gt_iff_lt] at h
    have := h.2
    simp at this
    exact this
  have hcases : t.toNat = 0 ∨ t.toNat = 1 ∨ t.toNat = 2 := by omega
  exact hcases.imp UInt8.toNat_inj.1 (Or.imp UInt8.toNat_inj.1 UInt8.toNat_inj.1)

/-- **Each bit of the flag byte is read back on its own.** -/
theorem encodeFlag_bits (h : invalidType m.type = false) (code : Option UInt16) (gz : Bool) :
    let flag := encodeFlag m code ||| if gz then gzipMask else 0
    (flag >>> 1) &&& msgTypeMask = m.type ∧
      (flag &&& msgRouteCompressMask = 1 ↔ code.isSome) ∧
      (flag &&& errorMask == errorMask) = m.err ∧
      (flag &&& gzipMask = gzipMask ↔ gz) := by
  simp only [encodeFlag]
  generalize code.isSome = c
  generalize m.err = e
  rcases type_cases h with ht | ht | ht <;> rw [ht] <;> revert c e gz <;> decide

/-! ## The whole message -/

/-- The id field of an encoding. -/
def idField (m : Message) : List UInt8 :=
  if m.type = request ∨ m.type = response then encodeID m.id else []

/-- The route field of an encoding. -/
def routeField (dict : Dictionary) (m : Message) : List UInt8 :=
  if routable m.type then encodeRoute (dict.routes.get? m.route) m.route else []

/-- The buffer of `Encode` before the payload, field by field. -/
theorem encode_buf_eq (dict : Dictionary) (m : Message) (flag : UInt8) :
    (if routable m.type then
      (if m.type = request ∨ m.type = response then [flag] ++ encodeID m.id else [flag]) ++
        encodeRoute (dict.routes.get? m.route) m.route
    else if m.type = request ∨ m.type = response then [flag] ++ encodeID m.id else [flag]) =
      flag :: (idField m ++ routeField dict m) := by
  simp only [idField, routeField]
  split <;> split <;> simp

/-- **An encoding is its four fields laid end to end**; the payload is
the data, or a deflated form of it under the gzip bit. -/
theorem encode_eq (hz : z.Inverse) (dict : Dictionary) (dataCompression : Bool)
    (h : invalidType m.type = false) :
    ∃ (gz : Bool) (payload : List UInt8), (encode z dict dataCompression m).1 =
        .ok ((encodeFlag m (dict.routes.get? m.route) ||| if gz then gzipMask else 0) ::
          (idField m ++ (routeField dict m ++ payload))) ∧
      if gz then z.inflateData payload = .ok m.data else payload = m.data := by
  simp only [encode, h, Bool.false_eq_true, if_false, encode_buf_eq]
  by_cases hdc : dataCompression = true
  · obtain ⟨d, hd, hinf⟩ := hz m.data
    simp only [hdc, if_true, hd]
    -- the deflated form is taken only if it is shorter
    by_cases hshort : d.length < m.data.length
    · refine ⟨true, d, ?_, by simpa using hinf⟩
      simp [hshort]
    · refine ⟨false, m.data, ?_, by simp⟩
      simp [hshort]
  · refine ⟨false, m.data, ?_, by simp⟩
    simp [hdc]

/-- **Reading four fields laid end to end.** -/
theorem decode_fields {flag type : UInt8} {idf routef payload payload' : List UInt8} {id : UInt64}
    {route : GoString} {compressed : Bool} (htype : (flag >>> 1) &&& msgTypeMask = type)
    (hvalid : invalidType type = false) (hne : idf ++ routef ≠ [])
    (hid : decodeIDField type (flag :: (idf ++ (routef ++ payload))) 1 = (id, 1 + idf.length))
    (hroute : decodeRouteField dict flag type (flag :: (idf ++ (routef ++ payload)))
      (1 + idf.length) = .ok (route, compressed, 1 + idf.length + routef.length))
    (hpayload : decodePayload z flag payload = .ok payload') :
    decode z dict (flag :: (idf ++ (routef ++ payload))) =
      .ok ⟨type, id, route, payload', compressed, flag &&& errorMask == errorMask⟩ := by
  have hpos : 0 < idf.length + routef.length := by
    rw [← List.length_append]
    exact List.length_pos_iff.2 hne
  have hhead : ¬ (flag :: (idf ++ (routef ++ payload))).length < msgHeadLength := by
    simp only [msgHeadLength, List.length_cons, List.length_append]
    omega
  have hfit : ¬ 1 + idf.length + routef.length >
      (flag :: (idf ++ (routef ++ payload))).length := by
    simp only [List.length_cons, List.length_append]
    omega
  have hrest : Outcome.sliceFrom (ε := MessageError) (flag :: (idf ++ (routef ++ payload)))
      (1 + idf.length + routef.length) = .ok payload := by
    have := Outcome.sliceFrom_append (ε := MessageError) (flag :: (idf ++ routef)) payload
    simpa [Nat.add_comm, Nat.add_left_comm, Nat.add_assoc] using this
  rw [decode, if_neg hhead]
  simp only [Outcome.index, List.getElem?_cons_zero, Outcome.ok_bind, htype, hvalid,
    Bool.false_eq_true, if_false, hid, hroute, if_neg hfit, hrest, hpayload, Outcome.pure_eq]

/-- A message of a valid type has an id or a route. -/
theorem fields_ne_nil (h : invalidType m.type = false) :
    idField m ++ routeField dict m ≠ [] := by
  have hid : encodeID m.id ≠ [] := by
    obtain ⟨run, last, heq, -, -⟩ := Varint.digits_eq_run m.id.toNat
    rw [encodeID_eq, heq]
    simp
  have hroute : encodeRoute (dict.routes.get? m.route) m.route ≠ [] := by
    cases dict.routes.get? m.route <;> simp [encodeRoute]
  rcases type_cases h with ht | ht | ht
  · simp [idField, ht, hid]
  · simp [routeField, ht, hroute, routable]
  · simp [idField, ht, hid]

/-- **What an encoding is read back as.** A message of a valid type whose
route, where it has one, is in the dictionary or fits its length byte. -/
theorem exists_decode_encode (hz : z.Inverse) (hdict : dict.Mirrored) (dataCompression : Bool)
    (hvalid : invalidType m.type = false)
    (hroute : routable m.type = true →
      (dict.routes.get? m.route).isSome ∨ m.route.length ≤ 255) :
    ∃ bs compressed, (encode z dict dataCompression m).1 = .ok bs ∧ decode z dict bs =
      .ok ⟨m.type, if m.type = request ∨ m.type = response then m.id else 0,
        if routable m.type then m.route else [], m.data, compressed, m.err⟩ := by
  obtain ⟨gz, payload, henc, hpayload⟩ := encode_eq hz dict dataCompression hvalid
  obtain ⟨hty, hcomp, herr, hgz⟩ := encodeFlag_bits hvalid (dict.routes.get? m.route) gz
  set flag := encodeFlag m (dict.routes.get? m.route) ||| if gz then gzipMask else 0
  -- each field is read back where the one before it ends
  have hid : decodeIDField m.type (flag :: (idField m ++ (routeField dict m ++ payload))) 1 =
      (if m.type = request ∨ m.type = response then m.id else 0, 1 + (idField m).length) := by
    rw [decodeIDField, idField]
    split
    · exact decodeID_encodeID [flag] (routeField dict m ++ payload) m.id
    · rfl
  have hrt : decodeRouteField dict flag m.type
      (flag :: (idField m ++ (routeField dict m ++ payload))) (1 + (idField m).length) =
        .ok (if routable m.type then m.route else [],
          if routable m.type then (dict.routes.get? m.route).isSome else false,
          1 + (idField m).length + (routeField dict m).length) := by
    rw [decodeRouteField, routeField]
    split
    · rename_i hr
      have := decodeRoute_encodeRoute hdict hcomp (hroute hr) (flag :: idField m) payload
      simpa [Nat.add_comm, Nat.add_left_comm] using this
    · rfl
  have hpl : decodePayload z flag payload = .ok m.data := by
    rw [decodePayload]
    cases gz with
    | true =>
      have hin : z.inflateData payload = .ok m.data := by simpa using hpayload
      rw [if_pos (hgz.2 rfl), hin]
    | false =>
      have heq : payload = m.data := by simpa using hpayload
      rw [if_neg (by simpa using hgz), heq]
  have hdecode := decode_fields hty hvalid (fields_ne_nil hvalid) hid hrt hpl
  rw [herr] at hdecode
  exact ⟨_, _, henc, hdecode⟩

/-- **Message round trip.** For every dictionary state `SetDictionary`
leads to and either setting of the compression, a message of a valid type
whose route, where it has one, is in the dictionary or fits its length
byte, is encoded, and its encoding decodes to the type, the error flag,
the id (none for a notification), the route and the data it had. -/
theorem decode_encode (hz : z.Inverse) (hdict : Reachable dict) (dataCompression : Bool)
    (m : Message) (htype : m.type = request ∨ m.type = notify ∨ m.type = response)
    (hroute : m.type = request ∨ m.type = notify →
      (dict.routes.get? m.route).isSome ∨ m.route.length ≤ 255) :
    ∃ bs m', (encode z dict dataCompression m).1 = .ok bs ∧ decode z dict bs = .ok m' ∧
      m'.type = m.type ∧ m'.err = m.err ∧
      (m.type = request ∨ m.type = response → m'.id = m.id) ∧ (m.type = notify → m'.id = 0) ∧
      (m.type = request ∨ m.type = notify → m'.route = m.route) ∧ m'.data = m.data := by
  have hvalid : invalidType m.type = false := by
    rcases htype with h | h | h <;> rw [h] <;> decide
  obtain ⟨bs, compressed, henc, hdec⟩ := exists_decode_encode hz (mirrored_of_reachable hdict)
    dataCompression hvalid fun hr => hroute (by simpa [routable] using hr)
  refine ⟨bs, _, henc, hdec, rfl, rfl, fun h => if_pos h, ?_, ?_, rfl⟩
  · intro h
    rw [h]
    rfl
  · intro h
    exact if_pos (by simpa [routable] using h)

/-- A stand-in for `compress/zlib` on short payloads, which it makes
longer: two bytes are put in front. -/
def headerZlib : Zlib := ⟨fun x => .ok (0x78 :: 0x9C :: x), fun d => .ok (d.drop 2)⟩

/-- The dictionary after one call with one entry. -/
def roomDict : Dictionary := (setDictionary .empty [(lit " room.join ", 513)]).2

/-- A request along the dictionary's route comes back under its code,
with its id of two bytes and its error flag. -/
theorem decode_encode_roomJoin :
    ∃ bs m', (encode headerZlib roomDict true
        ⟨request, 300, lit "room.join", [1, 2, 3], false, true⟩).1 = .ok bs ∧
      decode headerZlib roomDict bs = .ok m' ∧ m'.type = request ∧ m'.err = true ∧
      m'.id = 300 ∧ m'.route = lit "room.join" ∧ m'.data = [1, 2, 3] := by
  obtain ⟨bs, m', henc, hdec, htype, herr, hid, -, hroute, hdata⟩ :=
    @decode_encode headerZlib roomDict (fun x => ⟨0x78 :: 0x9C :: x, rfl, rfl⟩)
      (.call .empty (by decide)) true ⟨request, 300, lit "room.join", [1, 2, 3], false, true⟩
      (Or.inl rfl) (fun _ => Or.inr (by decide))
  exact ⟨bs, m', henc, hdec, htype, herr, hid (Or.inl rfl), hroute (Or.inl rfl), hdata⟩

end Messages

end Nrpc
