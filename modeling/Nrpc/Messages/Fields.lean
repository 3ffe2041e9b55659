import Nrpc.Messages.Bounds
/-!
# The fields of a message

The bytes of a message are a flag byte, an id field, a route field and the
payload, each of which says where it ends: an id by its first byte below
128, a written-out route by its length byte, a code by its two bytes. So
bytes that are laid out in fields are so in one way
(`Fields.eq_of_bytes_eq`), and `Decode` reads each part of the message from
its own field (`Fields.reads_of_decode`).

Bytes that `Decode` accepts need not be laid out at all. An id that no byte
closes leaves the offset where it was, and the bytes of the id are read
again as a route or as the payload. That is the only exception
(`decode_splits_iff`).
-/

namespace Nrpc

namespace Messages

variable {z : Zlib} {dict : Dictionary} {flag : UInt8} {data : List UInt8} {m : Message}

/-! ## Layout -/

/-- The bytes of a message, field by field. -/
@[ext]
structure Fields where
  flag : UInt8
  id : List UInt8
  route : List UInt8
  payload : List UInt8

def Fields.bytes (f : Fields) : List UInt8 := f.flag :: (f.id ++ (f.route ++ f.payload))

/-- The type bits of a flag byte. -/
def flagType (flag : UInt8) : UInt8 := (flag >>> 1) &&& msgTypeMask

def Fields.type (f : Fields) : UInt8 := flagType f.flag

/-- **An id field**: bytes of 128 and more, closed by one below. -/
def ClosedID (bs : List UInt8) : Prop :=
  ∃ run last, bs = run ++ [last] ∧ Varint.Run run ∧ last.toNat < 128

/-- **A route field**: a code of two bytes, or a length byte with so many
bytes behind it. -/
def ClosedRoute (flag : UInt8) (bs : List UInt8) : Prop :=
  if flag &&& msgRouteCompressMask = 1 then ∃ hi lo, bs = [hi, lo]
  else ∃ rl route, bs = rl :: route ∧ route.length = rl.toNat

/-- **Fields in their shape**: requests and responses have an id, requests
and notifications a route. -/
structure Fields.WellFormed (f : Fields) : Prop where
  id : if f.type = request ∨ f.type = response then ClosedID f.id else f.id = []
  route : if routable f.type then ClosedRoute f.flag f.route else f.route = []

/-- The route a route field stands for. -/
def RouteOf (dict : Dictionary) (flag : UInt8) (bs : List UInt8) (route : GoString) : Prop :=
  if flag &&& msgRouteCompressMask = 1 then
    ∃ hi lo, bs = [hi, lo] ∧ dict.codes.get? (hi.toUInt16 <<< 8 ||| lo.toUInt16) = some route
  else route = bs.tail

/-- **A message read from its fields**, each part from its own. -/
structure Fields.Reads (dict : Dictionary) (f : Fields) (m : Message) : Prop where
  type : m.type = f.type
  id : m.id = UInt64.ofNat (Varint.value f.id)
  route : if routable f.type then RouteOf dict f.flag f.route m.route else m.route = []
  data : m.data = f.payload
  err : m.err = (f.flag &&& errorMask == errorMask)

/-! ## One layout -/

/-- An id field ends at its first closing byte. -/
theorem ClosedID.append_inj {a b x y : List UInt8} (ha : ClosedID a) (hb : ClosedID b)
    (h : a ++ x = b ++ y) : a = b ∧ x = y := by
  obtain ⟨run, last, rfl, hrun, hlast⟩ := ha
  obtain ⟨run', last', rfl, hrun', hlast'⟩ := hb
  refine List.append_inj h ?_
  -- both are as long as the id loop reads
  have hread := decodeIDLoop_run x hrun hlast 0 0
  have hread' := decodeIDLoop_run y hrun' hlast' 0 0
  simp only [List.append_assoc, List.singleton_append] at h
  rw [h, hread'] at hread
  have hlen := Option.some.inj (Prod.mk.inj hread).2
  simp only [List.length_append, List.length_singleton]
  omega

/-- A route field ends where its flag or its length byte says. -/
theorem ClosedRoute.append_inj {a b x y : List UInt8} (ha : ClosedRoute flag a)
    (hb : ClosedRoute flag b) (h : a ++ x = b ++ y) : a = b ∧ x = y := by
  refine List.append_inj h ?_
  unfold ClosedRoute at ha hb
  split at ha
  · rename_i hflag
    rw [if_pos hflag] at hb
    obtain ⟨_, _, rfl⟩ := ha
    obtain ⟨_, _, rfl⟩ := hb
    rfl
  · rename_i hflag
    rw [if_neg hflag] at hb
    obtain ⟨rl, route, rfl, hlen⟩ := ha
    obtain ⟨rl', route', rfl, hlen'⟩ := hb
    obtain ⟨rfl, -⟩ := List.cons.inj h
    simp [hlen, hlen']

/-- A field that may be missing ends where it says, too. -/
theorem optional_append_inj {c : Prop} [Decidable c] {P : List UInt8 → Prop}
    (hinj : ∀ {a b x y}, P a → P b → a ++ x = b ++ y → a = b ∧ x = y) {a b x y : List UInt8}
    (ha : if c then P a else a = []) (hb : if c then P b else b = []) (h : a ++ x = b ++ y) :
    a = b ∧ x = y := by
  by_cases hc : c
  · rw [if_pos hc] at ha hb
    exact hinj ha hb h
  · rw [if_neg hc] at ha hb
    subst ha hb
    exact ⟨rfl, h⟩

/-- **Bytes are laid out in one way.** -/
theorem Fields.eq_of_bytes_eq {f g : Fields} (hf : f.WellFormed) (hg : g.WellFormed)
    (h : f.bytes = g.bytes) : f = g := by
  obtain ⟨hflag, hrest⟩ := List.cons.inj h
  have htype : g.type = f.type := by rw [Fields.type, Fields.type, hflag]
  have hgid := hg.id
  have hgroute := hg.route
  rw [htype] at hgid hgroute
  rw [← hflag] at hgroute
  obtain ⟨hid, hrest⟩ := optional_append_inj ClosedID.append_inj hf.id hgid hrest
  obtain ⟨hroute, hpayload⟩ := optional_append_inj ClosedRoute.append_inj hf.route hgroute hrest
  exact Fields.ext hflag hid hroute hpayload

/-! ## What is read from the fields -/

/-- **The id is read from its field**, and the offset moves behind it. -/
theorem decodeIDField_closed {type : UInt8} {id tail : List UInt8}
    (hid : if type = request ∨ type = response then ClosedID id else id = []) :
    decodeIDField type (flag :: (id ++ tail)) 1 =
      (UInt64.ofNat (Varint.value id), 1 + id.length) := by
  unfold decodeIDField
  split
  · rename_i htype
    rw [if_pos htype] at hid
    obtain ⟨run, last, rfl, hrun, hlast⟩ := hid
    have hrest : (flag :: (run ++ [last] ++ tail)).drop 1 = run ++ last :: tail := by simp
    rw [decodeID, hrest, decodeIDLoop_run _ hrun hlast]
    simp only [Nat.pow_zero, Nat.mul_one, Option.getD_some, Nat.zero_add,
      List.length_append, List.length_singleton, Prod.mk.injEq, and_true]
    simp
  · rename_i htype
    rw [if_neg htype] at hid
    rw [hid]
    rfl

/-- **A route field is read whole, or its code is unknown.** -/
theorem decodeRoute_closed {l bs r : List UInt8} (hbs : ClosedRoute flag bs) :
    decodeRoute dict flag (l ++ (bs ++ r)) l.length = .err .routeInfoNotFound ∨
    ∃ route compressed, RouteOf dict flag bs route ∧
      decodeRoute dict flag (l ++ (bs ++ r)) l.length =
        .ok (route, compressed, l.length + bs.length) := by
  unfold ClosedRoute at hbs
  unfold RouteOf
  rw [decodeRoute]
  by_cases hflag : flag &&& msgRouteCompressMask = 1
  · rw [if_pos hflag] at hbs ⊢
    obtain ⟨hi, lo, rfl⟩ := hbs
    have hslice := Outcome.slice_append (ε := MessageError) l [hi, lo] r
    simp only [List.length_cons, List.length_nil, Nat.zero_add, List.append_assoc] at hslice
    have hfit : ¬ (l.length > (l ++ ([hi, lo] ++ r)).length ∨
        l.length + 2 > (l ++ ([hi, lo] ++ r)).length) := by
      simp only [List.length_append, List.length_cons, List.length_nil]
      omega
    simp only [if_neg hfit, hslice, Outcome.ok_bind, Outcome.index, List.getElem?_cons_zero,
      List.getElem?_cons_succ]
    rcases hcode : dict.codes.get? (hi.toUInt16 <<< 8 ||| lo.toUInt16) with _ | route
    · exact Or.inl rfl
    · exact Or.inr ⟨route, true, if_pos hflag ▸ ⟨hi, lo, rfl, hcode⟩, rfl⟩
  · rw [if_neg hflag] at hbs ⊢
    obtain ⟨rl, route, rfl, hlen⟩ := hbs
    have hslice := Outcome.slice_append (ε := MessageError) (l ++ [rl]) route r
    simp only [List.length_append, List.length_cons, List.length_nil, Nat.zero_add,
      List.append_assoc, List.cons_append, List.nil_append] at hslice
    have hfit : ¬ (l.length + 1 > (l ++ (rl :: route ++ r)).length ∨
        l.length + 1 + route.length > (l ++ (rl :: route ++ r)).length) := by
      simp only [List.length_append, List.length_cons]
      omega
    simp only [List.cons_append] at hfit ⊢
    rw [Outcome.index_append_cons]
    simp only [Outcome.ok_bind, ← hlen, if_neg hfit, hslice, Outcome.pure_eq]
    refine Or.inr ⟨route, false, ?_, ?_⟩
    · rw [if_neg hflag]
      rfl
    · rw [List.length_cons, Nat.add_assoc, Nat.add_comm 1]

/-- What `Decode` has got past when it succeeds. -/
theorem decode_eq_ok (h : decode z dict data = .ok m) :
    ∃ flag rest r, data = flag :: rest ∧ rest ≠ [] ∧ m.type = (flag >>> 1) &&& msgTypeMask ∧
      invalidType m.type = false ∧ m.id = (decodeIDField m.type data 1).1 ∧
      decodeRouteField dict flag m.type data (decodeIDField m.type data 1).2 = .ok r := by
  rw [decode] at h
  split at h
  · cases h
  rename_i hlen
  obtain ⟨flag, hflag, h⟩ := Outcome.bind_eq_ok_iff.1 h
  simp only at h
  split at h
  · cases h
  rename_i hvalid
  obtain ⟨⟨route, compressed, offset⟩, hroute, h⟩ := Outcome.bind_eq_ok_iff.1 h
  simp only at h
  split at h
  · cases h
  obtain ⟨payload, -, h⟩ := Outcome.bind_eq_ok_iff.1 h
  obtain ⟨payload', -, h⟩ := Outcome.bind_eq_ok_iff.1 h
  obtain rfl := Outcome.ok.inj h
  rcases data with _ | ⟨b, rest⟩
  · simp [msgHeadLength] at hlen
  obtain rfl : b = flag := by simpa [Outcome.index] using hflag
  refine ⟨b, rest, _, rfl, ?_, rfl, by simpa using hvalid, rfl, hroute⟩
  rintro rfl
  simp [msgHeadLength] at hlen

/-- Fields of a valid type are more than the flag byte. -/
theorem Fields.WellFormed.ne_nil {f : Fields} (hf : f.WellFormed)
    (hvalid : invalidType f.type = false) : f.id ++ f.route ≠ [] := by
  have hid := hf.id
  have hroute := hf.route
  by_cases htype : f.type = request ∨ f.type = response
  · rw [if_pos htype] at hid
    obtain ⟨run, last, heq, -, -⟩ := hid
    simp [heq]
  · have hnotify : f.type = notify := by
      rcases type_cases hvalid with h | h | h
      · exact absurd (Or.inl h) htype
      · exact h
      · exact absurd (Or.inr h) htype
    rw [if_pos (by rw [hnotify]; decide)] at hroute
    unfold ClosedRoute at hroute
    split at hroute
    · obtain ⟨hi, lo, heq⟩ := hroute
      simp [heq]
    · obtain ⟨rl, route, heq, -⟩ := hroute
      simp [heq]

/-- **Each part of a message is read from its own field.** -/
theorem Fields.reads_of_decode {f : Fields} (hf : f.WellFormed)
    (hgzip : f.flag &&& gzipMask ≠ gzipMask) (h : decode z dict f.bytes = .ok m) :
    f.Reads dict m := by
  obtain ⟨flag, rest, r, hbytes, -, htype, hvalid, -, hok⟩ := decode_eq_ok h
  obtain ⟨rfl, -⟩ := List.cons.inj hbytes
  rw [show m.type = f.type from htype] at hvalid hok
  have hid := @decodeIDField_closed f.flag f.type f.id (f.route ++ f.payload) hf.id
  rw [show f.bytes = f.flag :: (f.id ++ (f.route ++ f.payload)) from rfl, hid] at hok
  dsimp only at hok
  -- the route field is read whole, since it was read at all
  have hread : ∃ route compressed,
      (if routable f.type then RouteOf dict f.flag f.route route else route = []) ∧
      decodeRouteField dict f.flag f.type f.bytes (1 + f.id.length) =
        .ok (route, compressed, 1 + f.id.length + f.route.length) := by
    have hroute := hf.route
    unfold decodeRouteField at hok ⊢
    by_cases hr : routable f.type = true
    · rw [if_pos hr] at hok hroute
      have hcases := @decodeRoute_closed dict f.flag (f.flag :: f.id) f.route f.payload hroute
      simp only [List.cons_append, List.length_cons, Nat.add_comm f.id.length 1] at hcases
      rcases hcases with herr | ⟨route, compressed, hof, hok'⟩
      · exact absurd (hok.symm.trans herr) (by simp)
      · exact ⟨route, compressed, by rw [if_pos hr]; exact hof, by rw [if_pos hr]; exact hok'⟩
    · rw [if_neg hr] at hroute
      refine ⟨[], false, by rw [if_neg hr], ?_⟩
      rw [if_neg hr, hroute]
      rfl
  obtain ⟨route, compressed, hof, hroute⟩ := hread
  have hdecode := decode_fields rfl hvalid (hf.ne_nil hvalid) hid hroute
    (z := z) (by rw [decodePayload, if_neg hgzip])
  obtain rfl := Outcome.ok.inj (hdecode.symm.trans h)
  exact ⟨rfl, rfl, hof, rfl, rfl⟩

/-! ## Bytes that are laid out -/

/-- A route that was read has a route field. -/
theorem closedRoute_of_decodeRoute {l tail : List UInt8} {r : GoString × Bool × ℕ}
    (h : decodeRoute dict flag (l ++ tail) l.length = .ok r) :
    ∃ bs payload, tail = bs ++ payload ∧ ClosedRoute flag bs := by
  rw [decodeRoute] at h
  unfold ClosedRoute
  by_cases hflag : flag &&& msgRouteCompressMask = 1
  · simp only [if_pos hflag] at h ⊢
    split at h
    · cases h
    rename_i hfit
    rcases tail with _ | ⟨hi, _ | ⟨lo, payload⟩⟩
    · simp at hfit
    · simp at hfit
    · exact ⟨[hi, lo], payload, rfl, hi, lo, rfl⟩
  · simp only [if_neg hflag] at h ⊢
    obtain ⟨rl, hrl, h⟩ := Outcome.bind_eq_ok_iff.1 h
    split at h
    · cases h
    rename_i hfit
    rcases tail with _ | ⟨b, tail⟩
    · simp [Outcome.index] at hrl
    rw [Outcome.index_append_cons] at hrl
    obtain rfl := Outcome.ok.inj hrl
    refine ⟨b :: tail.take b.toNat, tail.drop b.toNat, by simp, b, _, rfl, ?_⟩
    simp only [List.length_append, List.length_cons] at hfit
    rw [List.length_take]
    omega

/-- **Accepted bytes are laid out in fields** if their id, where they have
one, is closed. -/
theorem exists_fields (h : decode z dict data = .ok m)
    (hclosed : m.type = request ∨ m.type = response → ∃ b ∈ data.tail, b.toNat < 128) :
    ∃ f : Fields, f.WellFormed ∧ f.bytes = data := by
  obtain ⟨flag, rest, r, rfl, -, htype, hvalid, -, hok⟩ := decode_eq_ok h
  have hsplit : ∃ id tail, rest = id ++ tail ∧
      (if m.type = request ∨ m.type = response then ClosedID id else id = []) := by
    by_cases ht : m.type = request ∨ m.type = response
    · obtain ⟨b, hb, hlt⟩ := hclosed ht
      rcases Varint.run_or_exists_last rest with hrun | ⟨run, last, tail, rfl, hrun, hlast⟩
      · exact absurd (hrun b hb) (Nat.not_le.2 hlt)
      · refine ⟨run ++ [last], tail, by simp, ?_⟩
        rw [if_pos ht]
        exact ⟨run, last, rfl, hrun, hlast⟩
    · exact ⟨[], rest, rfl, by rw [if_neg ht]⟩
  obtain ⟨id, tail, rfl, hid⟩ := hsplit
  rw [decodeIDField_closed hid] at hok
  unfold decodeRouteField at hok
  rw [htype] at hid hok
  by_cases hr : routable ((flag >>> 1) &&& msgTypeMask) = true
  · rw [if_pos hr] at hok
    obtain ⟨bs, payload, rfl, hbs⟩ := @closedRoute_of_decodeRoute dict flag (flag :: id) tail r
      (by rwa [List.length_cons, Nat.add_comm])
    exact ⟨⟨flag, id, bs, payload⟩, ⟨hid, (if_pos hr).mpr hbs⟩, rfl⟩
  · exact ⟨⟨flag, id, [], tail⟩, ⟨hid, (if_neg hr).mpr rfl⟩, rfl⟩

/-- Fields with an id hold a closing byte behind the flag. -/
theorem Fields.WellFormed.exists_closing {f : Fields} (hf : f.WellFormed)
    (htype : f.type = request ∨ f.type = response) : ∃ b ∈ f.bytes.tail, b.toNat < 128 := by
  have hid := hf.id
  rw [if_pos htype] at hid
  obtain ⟨run, last, heq, -, hlast⟩ := hid
  exact ⟨last, by simp [Fields.bytes, heq], hlast⟩

/-- **What `Decode` accepts is laid out in fields exactly if its id is
closed.** The layout is then the only one, and each part of the message is
read from its own field. -/
theorem decode_splits_iff (z : Zlib) (dict : Dictionary) (data : List UInt8) (m : Message)
    (hgzip : data.headD 0 &&& gzipMask ≠ gzipMask) (hdecode : decode z dict data = .ok m) :
    (∃ f : Fields, f.WellFormed ∧ f.bytes = data ∧ f.Reads dict m ∧
      ∀ f' : Fields, f'.WellFormed → f'.bytes = data → f' = f) ↔
    (flagType (data.headD 0) = request ∨ flagType (data.headD 0) = response →
      ∃ b ∈ data.tail, b.toNat < 128) := by
  constructor
  · rintro ⟨f, hf, rfl, -, -⟩ htype
    exact hf.exists_closing htype
  · intro hclosed
    have htype : m.type = flagType (data.headD 0) := by
      obtain ⟨flag, rest, _, rfl, -, htype, -⟩ := decode_eq_ok hdecode
      exact htype
    obtain ⟨f, hf, rfl⟩ := exists_fields hdecode (htype ▸ hclosed)
    refine ⟨f, hf, rfl, Fields.reads_of_decode hf hgzip hdecode, ?_⟩
    intro f' hf' heq
    exact Fields.eq_of_bytes_eq hf' hf heq

/-- A request with an id of two bytes and a written-out route. -/
theorem decode_splits_iff_request :
    let data : List UInt8 := [0x00, 0x85, 0x01, 0x01, 0x61, 0x07]
    let m : Message := ⟨request, 133, [0x61], [0x07], false, false⟩
    decode headerZlib roomDict data = .ok m ∧
      ∃ f : Fields, f.WellFormed ∧ f.bytes = data ∧ f.Reads roomDict m ∧
        ∀ f' : Fields, f'.WellFormed → f'.bytes = data → f' = f := by
  intro data m
  have hdecode : decode headerZlib roomDict data = .ok m := by decide +kernel
  refine ⟨hdecode, (decode_splits_iff headerZlib roomDict data m (by decide) hdecode).2 ?_⟩
  intro _
  exact ⟨0x01, by decide, by decide⟩

/-- **An id that no byte closes is accepted**, and its byte is read a second
time, as the payload. -/
theorem unclosed_id_read_twice :
    decode headerZlib roomDict [0x04, 0x85] = .ok ⟨response, 5, [], [0x85], false, false⟩ ∧
      ¬ ∃ f : Fields, f.WellFormed ∧ f.bytes = [0x04, 0x85] := by
  refine ⟨by decide +kernel, ?_⟩
  rintro ⟨f, hf, hbytes⟩
  have htype : f.type = response := by
    rw [Fields.type, (List.cons.inj hbytes).1]
    rfl
  obtain ⟨b, hb, hlt⟩ := hf.exists_closing (Or.inr htype)
  rw [hbytes] at hb
  obtain rfl := List.mem_singleton.1 hb
  exact absurd hlt (by decide)

/-! ## The id as a number -/

/-- The id is the number in its field, modulo `2 ^ 64`. -/
theorem toNat_id_of_decode {bs rest : List UInt8} (hdecode : decode z dict data = .ok m)
    (htype : m.type = request ∨ m.type = response) (hid : ClosedID bs)
    (hdata : data.tail = bs ++ rest) : m.id.toNat = Varint.value bs % UInt64.size := by
  obtain ⟨flag, rest', r, rfl, -, -, -, hm, -⟩ := decode_eq_ok hdecode
  obtain rfl : rest' = bs ++ rest := hdata
  rw [hm, @decodeIDField_closed flag m.type bs rest (by rw [if_pos htype]; exact hid)]
  exact UInt64.toNat_ofNat'

/-- **An id is decoded exactly if its number fits 64 bits**, for id fields of
every length. -/
theorem decode_id_exact_iff (z : Zlib) (dict : Dictionary) (data : List UInt8) (m : Message)
    (bs rest : List UInt8) (hdecode : decode z dict data = .ok m)
    (htype : m.type = request ∨ m.type = response) (hid : ClosedID bs)
    (hdata : data.tail = bs ++ rest) :
    m.id.toNat = ∑ i : Fin bs.length, (bs.get i).toNat % 128 * 128 ^ (i : ℕ) ↔
      ∑ i : Fin bs.length, (bs.get i).toNat % 128 * 128 ^ (i : ℕ) < UInt64.size := by
  rw [← Varint.value_eq_sum, toNat_id_of_decode hdecode htype hid hdata]
  exact Nat.mod_eq_iff_lt (by decide)

/-- A redundant encoding of the largest id there is, with a zero digit
behind it. -/
theorem decode_id_exact_iff_largest :
    let bs : List UInt8 := [0xFF, 0xFF, 0xFF, 0xFF, 0xFF, 0xFF, 0xFF, 0xFF, 0xFF, 0x81, 0x00]
    let m : Message := ⟨response, 18446744073709551615, [], [0x07], false, false⟩
    decode headerZlib roomDict (0x04 :: (bs ++ [0x07])) = .ok m ∧
      m.id.toNat = ∑ i : Fin bs.length, (bs.get i).toNat % 128 * 128 ^ (i : ℕ) := by
  intro bs m
  have hdecode : decode headerZlib roomDict (0x04 :: (bs ++ [0x07])) = .ok m := by decide +kernel
  have hid : ClosedID bs :=
    ⟨[0xFF, 0xFF, 0xFF, 0xFF, 0xFF, 0xFF, 0xFF, 0xFF, 0xFF, 0x81], 0x00, rfl, by decide +kernel,
      by decide⟩
  refine ⟨hdecode, (decode_id_exact_iff headerZlib roomDict _ m bs [0x07] hdecode (Or.inr rfl) hid
    rfl).2 ?_⟩
  rw [← Varint.value_eq_sum]
  decide

/-- **An id of `2 ^ 64` is accepted as 0.** -/
theorem decode_id_truncated :
    let bs : List UInt8 := [0x80, 0x80, 0x80, 0x80, 0x80, 0x80, 0x80, 0x80, 0x80, 0x02]
    ClosedID bs ∧ ∑ i : Fin bs.length, (bs.get i).toNat % 128 * 128 ^ (i : ℕ) = UInt64.size ∧
      decode headerZlib roomDict (0x04 :: bs) = .ok ⟨response, 0, [], [], false, false⟩ := by
  intro bs
  refine ⟨⟨[0x80, 0x80, 0x80, 0x80, 0x80, 0x80, 0x80, 0x80, 0x80], 0x02, rfl,
    by decide +kernel, by decide⟩, ?_, by decide +kernel⟩
  rw [← Varint.value_eq_sum]
  decide

end Messages

end Nrpc
