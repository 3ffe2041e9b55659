import Nrpc.Messages.Roundtrip
/-!
# Encoding what was decoded

`Decode` accepts more than `Encode` writes: ids with bytes too many, routes
written out that have a code, bits of the flag byte that mean nothing. All
of that is gone in the message. What `Decode` makes is within what `Encode`
can write (`wellFormed_of_decode`): its route came through the code map or
from behind a length byte, and a field its type does not have is empty. So
encoding it again and decoding that changes nothing (`encode_decode`).
-/

namespace Nrpc

namespace Messages

variable {z : Zlib} {dict : Dictionary} {m : Message} {flag : UInt8} {data : List UInt8}

/-! ## What `Decode` makes -/

/-- **A message an encoding can carry whole.** -/
structure WellFormed (dict : Dictionary) (m : Message) : Prop where
  type : invalidType m.type = false
  id : ¬ (m.type = request ∨ m.type = response) → m.id = 0
  route : routable m.type = true → (dict.routes.get? m.route).isSome ∨ m.route.length ≤ 255
  noRoute : ¬ routable m.type = true → m.route = []

/-- **A decoded route is in the dictionary or fits its length byte.** -/
theorem route_of_decodeRoute (hm : dict.Mirrored) {offset offset' : ℕ} {route : GoString}
    {compressed : Bool}
    (h : decodeRoute dict flag data offset = .ok (route, compressed, offset')) :
    (dict.routes.get? route).isSome ∨ route.length ≤ 255 := by
  simp only [decodeRoute] at h
  split at h
  · split at h
    · cases h
    · obtain ⟨bytes, -, h⟩ := Outcome.bind_eq_ok_iff.1 h
      obtain ⟨hi, -, h⟩ := Outcome.bind_eq_ok_iff.1 h
      obtain ⟨lo, -, h⟩ := Outcome.bind_eq_ok_iff.1 h
      split at h
      · cases h
      · rename_i route' hcode
        obtain ⟨rfl, -⟩ := Prod.mk.inj (Outcome.ok.inj h)
        left
        rw [(hm _ _).2 hcode]
        rfl
  · obtain ⟨rl, -, h⟩ := Outcome.bind_eq_ok_iff.1 h
    split at h
    · cases h
    · obtain ⟨route', hslice, h⟩ := Outcome.bind_eq_ok_iff.1 h
      obtain ⟨rfl, -⟩ := Prod.mk.inj (Outcome.ok.inj h)
      right
      have hrl := rl.toNat_lt
      rw [Outcome.slice] at hslice
      split at hslice
      · obtain rfl := Outcome.ok.inj hslice
        rw [List.length_drop, List.length_take]
        omega
      · cases hslice

/-- **What `Decode` makes, `Encode` can write.** -/
theorem wellFormed_of_decode (hm : dict.Mirrored) (h : decode z dict data = .ok m) :
    WellFormed dict m := by
  rw [decode] at h
  split at h
  · cases h
  obtain ⟨flag, -, h⟩ := Outcome.bind_eq_ok_iff.1 h
  simp only at h
  split at h
  · cases h
  rename_i hvalid
  obtain ⟨⟨route, compressed, offset⟩, hroute, h⟩ := Outcome.bind_eq_ok_iff.1 h
  simp only at h
  split at h
  · cases h
  obtain ⟨payload, -, h⟩ := Outcome.bind_eq_ok_iff.1 h
  obtain ⟨payload', -, h⟩ := Outcome.bind_eq_ok_iff.1 h
  obtain rfl := Outcome.ok.inj h
  refine ⟨by simpa using hvalid, ?_, ?_, ?_⟩
  · intro hno
    show (decodeIDField _ _ 1).1 = 0
    rw [decodeIDField, if_neg hno]
  · intro hr
    rw [decodeRouteField, if_pos hr] at hroute
    exact route_of_decodeRoute hm hroute
  · intro hr
    rw [decodeRouteField, if_neg hr] at hroute
    exact (Prod.mk.inj (Outcome.ok.inj hroute)).1.symm

/-! ## The way back -/

/-- **Re-encoding is stable.** Whatever bytes a message was decoded from, it
is encoded under either setting of the compression, and decoding that gives
the message again. -/
theorem encode_decode (z : Zlib) (hz : z.Inverse) (dict : Dictionary) (hdict : Reachable dict)
    (dataCompression : Bool) (data : List UInt8) (m : Message)
    (hdecode : decode z dict data = .ok m) :
    ∃ bs m', (encode z dict dataCompression m).1 = .ok bs ∧ decode z dict bs = .ok m' ∧
      m'.type = m.type ∧ m'.id = m.id ∧ m'.route = m.route ∧ m'.data = m.data ∧
      m'.err = m.err := by
  have hm := mirrored_of_reachable hdict
  have hwell := wellFormed_of_decode hm hdecode
  obtain ⟨bs, compressed, henc, hdec⟩ :=
    exists_decode_encode hz hm dataCompression hwell.type hwell.route
  refine ⟨bs, _, henc, hdec, rfl, ?_, ?_, rfl, rfl⟩
  · by_cases hhas : m.type = request ∨ m.type = response
    · exact if_pos hhas
    · rw [hwell.id hhas]
      exact if_neg hhas
  · by_cases hr : routable m.type = true
    · exact if_pos hr
    · rw [hwell.noRoute hr]
      exact if_neg hr

/-- A request along the dictionary's route, written out, with an id of one
byte too many and a reserved bit set: it comes back from the shorter
encoding. -/
theorem encode_decode_roomJoin :
    let data : List UInt8 := 0x80 :: 0x85 :: 0x00 :: 9 :: (lit "room.join" ++ [1, 2, 3])
    let m : Message := ⟨request, 5, lit "room.join", [1, 2, 3], false, false⟩
    decode headerZlib roomDict data = .ok m ∧
      ∃ bs m', (encode headerZlib roomDict true m).1 = .ok bs ∧
        decode headerZlib roomDict bs = .ok m' ∧ m'.type = request ∧ m'.id = 5 ∧
        m'.route = lit "room.join" ∧ m'.data = [1, 2, 3] ∧ m'.err = false := by
  intro data m
  have hdecode : decode headerZlib roomDict data = .ok m := by decide +kernel
  exact ⟨hdecode, encode_decode headerZlib (fun x => ⟨0x78 :: 0x9C :: x, rfl, rfl⟩) roomDict
    (.call .empty (by decide)) true data m hdecode⟩

end Messages

end Nrpc
