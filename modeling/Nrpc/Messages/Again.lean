import Nrpc.Messages.Fields
import Nrpc.Messages.Unambiguous
/-!
# Encoding a message again

`Encode` takes its message by pointer. A payload that deflates to fewer
bytes is replaced behind the pointer, so the next encoding of the same
message is one of the deflated bytes, without the gzip bit unless they
shrink once more, and decodes to them.

Without such a payload the message stays what it was, every encoding of it
is the first, and each decodes to the data, provided the route fits its
length byte. These are the only two conditions (`repeatable_iff`).
-/

namespace Nrpc

namespace Messages

variable {z : Zlib} {dict : Dictionary} {dataCompression : Bool} {m : Message}

/-! ## What an encoding leaves behind -/

/-- The payload is compressed, and shorter for it. -/
def Shortened (z : Zlib) (dataCompression : Bool) (m : Message) : Prop :=
  dataCompression = true ∧ ∃ d, z.deflateData m.data = .ok d ∧ d.length < m.data.length

/-- The results of encoding one message `n` times through its pointer. -/
def encodings (z : Zlib) (dict : Dictionary) (dataCompression : Bool) :
    ℕ → Message → List (Except MessageError (List UInt8))
  | 0, _ => []
  | n + 1, m =>
    let encoded := encode z dict dataCompression m
    encoded.1 :: encodings z dict dataCompression n encoded.2

/-- **A message that can be encoded again**: it is left as it was, every
encoding gives what the first gave, and what it gave decodes to the data. -/
structure Repeatable (z : Zlib) (dict : Dictionary) (dataCompression : Bool) (m : Message) :
    Prop where
  left : (encode z dict dataCompression m).2 = m
  same : ∀ n, ∀ result ∈ encodings z dict dataCompression n m,
    result = (encode z dict dataCompression m).1
  decodes : ∀ n, ∀ bs, .ok bs ∈ encodings z dict dataCompression n m →
    ∃ m', decode z dict bs = .ok m' ∧ m'.data = m.data

/-- An encoding of a wrong type fails and does nothing. -/
theorem encode_of_invalidType (h : invalidType m.type = true) :
    encode z dict dataCompression m = (.error .wrongMessageType, m) := by
  rw [encode, if_pos h]

/-- **A payload that is not shortened is written as it is**, and the message
stays. -/
theorem encode_of_not_shortened (hz : z.Inverse) (hvalid : invalidType m.type = false)
    (hshort : ¬ Shortened z dataCompression m) :
    encode z dict dataCompression m =
      (.ok (encodeFlag m (dict.routes.get? m.route) ::
        (idField m ++ (routeField dict m ++ m.data))), m) := by
  simp only [encode, hvalid, Bool.false_eq_true, if_false, encode_buf_eq]
  by_cases hdc : dataCompression = true
  · obtain ⟨d, hd, -⟩ := hz m.data
    have hlong : ¬ d.length < m.data.length := fun h => hshort ⟨hdc, d, hd, h⟩
    simp [hdc, hd, hlong]
  · simp [hdc]

/-- **A shortened payload is replaced behind the pointer.** -/
theorem encode_of_shortened (hvalid : invalidType m.type = false)
    (hshort : Shortened z dataCompression m) : (encode z dict dataCompression m).2 ≠ m := by
  obtain ⟨hdc, d, hd, hlt⟩ := hshort
  intro h
  have hdata := congrArg Message.data h
  simp only [encode, hvalid, Bool.false_eq_true, if_false, hdc, if_true, hd, if_pos hlt] at hdata
  rw [hdata] at hlt
  exact Nat.lt_irrefl _ hlt

/-- **A message left as it was is encoded the same way again.** -/
theorem encodings_eq_replicate (h : (encode z dict dataCompression m).2 = m) (n : ℕ) :
    encodings z dict dataCompression n m =
      List.replicate n (encode z dict dataCompression m).1 := by
  induction n with
  | zero => rfl
  | succ n ih => rw [encodings, h, ih, List.replicate_succ]

/-! ## A route beyond its length byte -/

/-- The id field of an encoding is closed. -/
theorem closedID_encodeID (n : UInt64) : ClosedID (encodeID n) := by
  rw [encodeID_eq]
  exact Varint.digits_eq_run n.toNat

/-- **A route too long for its length byte runs into the payload**: what is
decoded is longer than the data. -/
theorem decode_long_route {m' : Message} (hvalid : invalidType m.type = false)
    (hr : routable m.type = true) (hcode : dict.routes.get? m.route = none)
    (hlong : 255 < m.route.length)
    (h : decode z dict (encodeFlag m (dict.routes.get? m.route) ::
      (idField m ++ (routeField dict m ++ m.data))) = .ok m') :
    m.data.length < m'.data.length := by
  obtain ⟨hty, hcomp, -, hgz⟩ := encodeFlag_bits hvalid (dict.routes.get? m.route) false
  simp only [Bool.false_eq_true, if_false, UInt8.or_zero] at hty hcomp hgz
  -- the length byte says where the route field ends
  let k := m.route.length % 256
  have hk : k < m.route.length := Nat.lt_of_lt_of_le (Nat.mod_lt _ (by decide)) hlong
  let f : Fields := ⟨encodeFlag m (dict.routes.get? m.route), idField m,
    UInt8.ofNat m.route.length :: m.route.take k, m.route.drop k ++ m.data⟩
  have htype : f.type = m.type := hty
  have hplain : ¬ f.flag &&& msgRouteCompressMask = 1 := by
    intro h
    simpa [hcode] using hcomp.1 h
  have hf : f.WellFormed := by
    constructor
    · rw [htype]
      show if _ then ClosedID (idField m) else idField m = []
      unfold idField
      split
      · exact closedID_encodeID m.id
      · rfl
    · rw [htype, if_pos hr, ClosedRoute, if_neg hplain]
      refine ⟨_, _, rfl, ?_⟩
      rw [List.length_take, Nat.min_eq_left (Nat.le_of_lt hk)]
      simp [k]
  have hbytes : f.bytes = encodeFlag m (dict.routes.get? m.route) ::
      (idField m ++ (routeField dict m ++ m.data)) := by
    rw [routeField, if_pos hr, hcode, encodeRoute]
    simp only [f, Fields.bytes, hcode, List.cons_append, ← List.append_assoc,
      List.take_append_drop]
  rw [← hbytes] at h
  have hdata := (Fields.reads_of_decode hf hgz.1 h).data
  rw [hdata]
  simp only [f, List.length_append, List.length_drop]
  omega

/-! ## Every encoding -/

/-- A message left as it was can be encoded again if its first encoding
decodes to the data. -/
theorem repeatable_of_left (hleft : (encode z dict dataCompression m).2 = m)
    (hdecodes : ∀ bs, (encode z dict dataCompression m).1 = .ok bs →
      ∃ m', decode z dict bs = .ok m' ∧ m'.data = m.data) :
    Repeatable z dict dataCompression m := by
  refine ⟨hleft, ?_, ?_⟩
  · intro n result hmem
    rw [encodings_eq_replicate hleft] at hmem
    exact List.eq_of_mem_replicate hmem
  · intro n bs hmem
    rw [encodings_eq_replicate hleft] at hmem
    exact hdecodes bs (List.eq_of_mem_replicate hmem).symm

/-- **When a message can be encoded again.** Its type is wrong, so that
nothing is encoded, or its payload is not shortened and its route, where it
has one, is in the dictionary or fits its length byte. -/
theorem repeatable_iff (z : Zlib) (hz : z.Inverse) (dict : Dictionary) (hdict : Reachable dict)
    (dataCompression : Bool) (m : Message) :
    Repeatable z dict dataCompression m ↔
      invalidType m.type = true ∨ (¬ Shortened z dataCompression m ∧
        (routable m.type = true → (dict.routes.get? m.route).isSome ∨ m.route.length ≤ 255)) := by
  by_cases hinvalid : invalidType m.type = true
  · refine ⟨fun _ => Or.inl hinvalid, fun _ => ?_⟩
    have henc := @encode_of_invalidType z dict dataCompression m hinvalid
    refine repeatable_of_left (by rw [henc]) ?_
    intro bs hbs
    rw [henc] at hbs
    cases hbs
  have hvalid : invalidType m.type = false := by simpa using hinvalid
  constructor
  · intro hrep
    have hshort : ¬ Shortened z dataCompression m := fun h =>
      encode_of_shortened hvalid h hrep.left
    refine Or.inr ⟨hshort, fun hr => ?_⟩
    by_contra hroute
    obtain ⟨hcode, hlong⟩ := not_or.1 hroute
    -- one encoding is enough: it decodes to more than the data
    have hmem : .ok (encodeFlag m (dict.routes.get? m.route) ::
        (idField m ++ (routeField dict m ++ m.data))) ∈ encodings z dict dataCompression 1 m := by
      rw [encodings_eq_replicate hrep.left, encode_of_not_shortened hz hvalid hshort]
      exact List.mem_singleton_self _
    obtain ⟨m', hdecode, hdata⟩ := hrep.decodes 1 _ hmem
    have hlt := decode_long_route hvalid hr (by simpa using hcode) (by omega) hdecode
    rw [hdata] at hlt
    exact Nat.lt_irrefl _ hlt
  · rintro (h | ⟨hshort, hroute⟩)
    · exact absurd h hinvalid
    · refine repeatable_of_left (by rw [encode_of_not_shortened hz hvalid hshort]) ?_
      intro bs hbs
      obtain ⟨bs', compressed, henc, hdecode⟩ := exists_decode_encode hz
        (mirrored_of_reachable hdict) dataCompression hvalid hroute
      obtain rfl := Except.ok.inj (hbs.symm.trans henc)
      exact ⟨_, hdecode, rfl⟩

/-- A notification along the dictionary's route, whose payload grows when
deflated. -/
theorem repeatable_iff_roomJoin :
    Repeatable headerZlib roomDict true (notification (lit "room.join") [1, 2, 3]) := by
  have hdict : Reachable roomDict := .call .empty (by decide)
  refine (repeatable_iff headerZlib (fun x => ⟨0x78 :: 0x9C :: x, rfl, rfl⟩) roomDict hdict true
    _).2 (Or.inr ⟨?_, fun _ => Or.inl (by decide +kernel)⟩)
  rintro ⟨-, d, hd, hlt⟩
  obtain rfl := Except.ok.inj hd
  exact absurd hlt (by decide)

/-- 128 equal bytes. -/
def longRun : List UInt8 := List.replicate 128 0x61

/-- What `zlib` deflates them to. -/
def deflatedRun : List UInt8 :=
  [0x78, 0x9c, 0x4a, 0x1c, 0x60, 0x00, 0x08, 0x00, 0x00, 0xff, 0xff, 0x39, 0x74, 0x30, 0x81]

/-- What `zlib` deflates that to: nothing in it repeats. -/
def deflatedTwice : List UInt8 :=
  [0x78, 0x9c, 0xaa, 0x98, 0xe3, 0x25, 0x93, 0xc0, 0xc0, 0xc1, 0xc0, 0xf0, 0xff, 0xbf, 0x65,
    0x89, 0x41, 0x23, 0x20, 0x00, 0x00, 0xff, 0xff, 0x27, 0x2f, 0x05, 0x3f]

/-- `zlib` on these payloads; any other one is only marked. -/
def runZlib : Zlib where
  deflateData x := .ok (
    if x = longRun then deflatedRun else if x = deflatedRun then deflatedTwice else 0 :: x)
  inflateData d := .ok (
    if d = deflatedRun then longRun else if d = deflatedTwice then deflatedRun else d.drop 1)

theorem runZlib_inverse : runZlib.Inverse := by
  intro x
  by_cases hx : x = longRun
  · subst hx
    exact ⟨deflatedRun, rfl, rfl⟩
  by_cases hx' : x = deflatedRun
  · subst hx'
    exact ⟨deflatedTwice, by decide +kernel, by decide +kernel⟩
  · refine ⟨0 :: x, by simp [runZlib, hx, hx'], ?_⟩
    -- what is marked starts with a zero, and what is deflated does not
    simp [runZlib, deflatedRun, deflatedTwice]

/-- **The second encoding of a shortened payload decodes to its deflated
form.** -/
theorem second_encoding_deflated :
    let m := notification (lit "room.join") longRun
    runZlib.Inverse ∧ Reachable roomDict ∧
      (encode runZlib roomDict true m).2.data = deflatedRun ∧
      encodings runZlib roomDict true 2 m =
        [.ok (0x13 :: 0x02 :: 0x01 :: deflatedRun), .ok (0x03 :: 0x02 :: 0x01 :: deflatedRun)] ∧
      decode runZlib roomDict (0x03 :: 0x02 :: 0x01 :: deflatedRun) =
        .ok ⟨notify, 0, lit "room.join", deflatedRun, true, false⟩ := by
  refine ⟨runZlib_inverse, .call .empty (by decide), ?_, ?_, ?_⟩ <;> decide +kernel

end Messages

end Nrpc
