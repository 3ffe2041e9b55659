import Nrpc.Codec.Framing
/-!
# A stream that arrives in parts

`Decode` does not say how much of its input it has used. A reader that
decodes what has arrived, counts the bytes of the packets it got and puts
the rest in front of what arrives next gets the packets of the whole
stream, wherever the stream was cut (`decode_append`): in a header, in a
payload, between two packets or behind an empty one.
-/

namespace Nrpc

namespace Codec

variable {buf rest : List UInt8} {p : Packet} {ps : List Packet}

/-- The bytes some packets took up in the stream. -/
def consumed : List Packet → ℕ
  | [] => 0
  | p :: ps => headLength + p.length + consumed ps

/-- **The packet scanner is steady.** An encoding at the front stays one
when bytes are added behind, and so does a bad header. -/
theorem steady_pomelo : pomelo.Steady where
  frame := by
    intro buf p rest more h
    obtain ⟨bs, henc, hsized, rfl⟩ := peel_eq_frame_iff.1 h
    exact peel_eq_frame_iff.2 ⟨bs, henc, hsized, List.append_assoc bs rest more⟩
  bad := by
    intro buf e more h
    obtain ⟨⟨hlen, typ, tail, rfl, htyp⟩, rfl⟩ := peel_eq_bad_iff.1 h
    refine peel_eq_bad_iff.2 ⟨⟨?_, typ, tail ++ more, rfl, htyp⟩, rfl⟩
    rw [List.length_append]
    omega

/-- A frame takes up its header and its length. -/
theorem length_of_peel (h : pomelo.peel buf = .frame p rest) :
    rest = buf.drop (headLength + p.length) ∧ headLength + p.length ≤ buf.length := by
  obtain ⟨bs, henc, ⟨hlt, hlen⟩, rfl⟩ := peel_eq_frame_iff.1 h
  obtain ⟨-, rfl⟩ := (encode_eq_ok_iff hlt).1 henc
  have hbs : (p.type :: intToBytes p.data.length ++ p.data).length = headLength + p.length := by
    simp only [intToBytes, headLength, List.length_append, List.length_cons, List.length_nil]
    omega
  rw [← hbs]
  refine ⟨List.drop_left.symm, ?_⟩
  simp only [List.length_append]
  omega

/-- **What is left behind some packets is what they have not taken up.** -/
theorem drop_consumed (h : pomelo.Peels buf ps rest) :
    rest = buf.drop (consumed ps) ∧ consumed ps ≤ buf.length := by
  induction h with
  | nil buf => exact ⟨rfl, Nat.zero_le _⟩
  | @cons buf mid rest p ps hp _ ih =>
    obtain ⟨hmid, hle⟩ := length_of_peel hp
    obtain ⟨hrest, hle'⟩ := ih
    rw [hmid, List.length_drop] at hle'
    rw [consumed]
    refine ⟨?_, by omega⟩
    rw [hrest, hmid, List.drop_drop]

/-- **Decoding does not depend on how the stream was cut.** -/
theorem decode_append (s a b : List UInt8) (ps : List Packet) (hdecode : decode s = .ok ps)
    (hsplit : s = a ++ b) :
    ∃ ps₁ ps₂, decode a = .ok ps₁ ∧ consumed ps₁ ≤ a.length ∧
      decode (a.drop (consumed ps₁) ++ b) = .ok ps₂ ∧ ps = ps₁ ++ ps₂ := by
  rw [hsplit, decode_eq_scan] at hdecode
  obtain ⟨ps₁, rest, ps₂, hpeels, hfirst, hsecond, hps⟩ :=
    Scanner.scan_append steady_pomelo hdecode
  obtain ⟨rfl, hle⟩ := drop_consumed hpeels
  refine ⟨ps₁, ps₂, ?_, hle, ?_, hps⟩
  · rw [decode_eq_scan, hfirst]
  · rw [decode_eq_scan, hsecond]

/-- A heartbeat and a data packet, cut in the header of the second. -/
theorem decode_append_heartbeat :
    let a : List UInt8 := [0x03, 0, 0, 0, 0x04, 0]
    let b : List UInt8 := [0, 2, 0x68, 0x69, 0x04]
    decode (a ++ b) = .ok [⟨heartbeat, 0, []⟩, ⟨data, 2, [0x68, 0x69]⟩] ∧
      ∃ ps₁ ps₂, decode a = .ok ps₁ ∧ consumed ps₁ ≤ a.length ∧
        decode (a.drop (consumed ps₁) ++ b) = .ok ps₂ ∧
        [⟨heartbeat, 0, []⟩, ⟨data, 2, [0x68, 0x69]⟩] = ps₁ ++ ps₂ := by
  intro a b
  have hdecode : decode (a ++ b) = .ok [⟨heartbeat, 0, []⟩, ⟨data, 2, [0x68, 0x69]⟩] := by
    decide +kernel
  exact ⟨hdecode, decode_append (a ++ b) a b _ hdecode rfl⟩

end Codec

end Nrpc
