import Nrpc.Messages.Roundtrip
/-!
# Where `Decode` reads out of range

Every index and slice expression of `Decode` but one stands behind a
check of its bounds. The exception is the length byte of a written-out
route, `data[offset]`: a request whose id field is the end of the input
has none. That is the only input `Decode` panics on.
-/

namespace Nrpc

namespace Messages

variable {z : Zlib} {dict : Dictionary} {flag : UInt8} {data : List UInt8} {offset : ℕ}

/-- **A request cut off behind its id**: the flag byte of a request with
a written-out route, then continuation bytes and the byte that closes the
id, and nothing else. -/
def CutRequest (data : List UInt8) : Prop :=
  ∃ flag run last, data = flag :: (run ++ [last]) ∧
    (flag >>> 1) &&& msgTypeMask = request ∧ flag &&& msgRouteCompressMask ≠ 1 ∧
    (∀ b ∈ run, 128 ≤ b.toNat) ∧ last.toNat < 128

/-- An id field without a closing byte does not move the offset. -/
theorem decodeIDLoop_of_run {bs : List UInt8} (h : Varint.Run bs) (k : ℕ) (id : UInt64) :
    (decodeIDLoop bs k id).2 = none := by
  induction bs generalizing k id with
  | nil => rfl
  | cons b bs ih =>
    have hb : ¬ b < 128 := by
      have := h b List.mem_cons_self
      rw [UInt8.lt_iff_toNat_lt]
      simp
      omega
    simp only [decodeIDLoop, if_neg hb]
    exact ih (fun c hc => h c (List.mem_cons_of_mem b hc)) _ _

/-- **The id field leaves the offset at the end of the input exactly when
its closing byte is the last byte there is.** -/
theorem length_le_decodeID_iff {rest : List UInt8} (hne : rest ≠ []) :
    (flag :: rest).length ≤ (decodeID (flag :: rest) 1).2 ↔
      ∃ run last, rest = run ++ [last] ∧ Varint.Run run ∧ last.toNat < 128 := by
  have hpos : 0 < rest.length := List.length_pos_iff.2 hne
  simp only [decodeID, List.drop_succ_cons, List.drop_zero, List.length_cons]
  rcases Varint.run_or_exists_last rest with hrun | ⟨run, last, tail, rfl, hrun, hlast⟩
  · rw [decodeIDLoop_of_run hrun]
    constructor
    · intro h
      simp only [Option.getD_none] at h
      omega
    · rintro ⟨run, last, rfl, -, hlast⟩
      have := hrun last (by simp)
      omega
  · rw [decodeIDLoop_run tail hrun hlast]
    simp only [Option.getD_some, List.length_append, List.length_cons]
    constructor
    · intro h
      have htail : tail = [] := List.length_eq_zero_iff.1 (by omega)
      exact ⟨run, last, by rw [htail], hrun, hlast⟩
    · rintro ⟨run', last', heq, hrun', -⟩
      -- the first closing byte of one splitting is the last byte of the other
      rcases List.eq_nil_or_concat tail with rfl | ⟨init, b, rfl⟩
      · simp only [List.length_nil]
        omega
      · have hmem : last ∈ run' := by
          have hsplit : (run ++ last :: init) ++ [b] = run' ++ [last'] := by simpa using heq
          have := (List.append_inj' hsplit rfl).1
          rw [← this]
          simp
        have := hrun' last hmem
        omega

/-- A dictionary code is read behind its bounds check. -/
theorem decodeRoute_ne_panic (hflag : flag &&& msgRouteCompressMask = 1) :
    decodeRoute dict flag data offset ≠ .panic := by
  rw [decodeRoute]
  simp only [if_pos hflag]
  split
  · simp
  · rename_i hfit
    have hle : offset ≤ offset + 2 ∧ offset + 2 ≤ data.length := by omega
    obtain ⟨hi, lo, hbytes⟩ : ∃ hi lo, (data.take (offset + 2)).drop offset = [hi, lo] := by
      have hlen : ((data.take (offset + 2)).drop offset).length = 2 := by
        rw [List.length_drop, List.length_take]
        omega
      exact List.length_eq_two.1 hlen
    simp only [Outcome.slice, if_pos hle, hbytes, Outcome.ok_bind, Outcome.index,
      List.getElem?_cons_zero, List.getElem?_cons_succ]
    split <;> simp

/-- **The route field panics exactly on a missing length byte.** -/
theorem decodeRoute_eq_panic_iff :
    decodeRoute dict flag data offset = .panic ↔
      flag &&& msgRouteCompressMask ≠ 1 ∧ data.length ≤ offset := by
  by_cases hflag : flag &&& msgRouteCompressMask = 1
  · exact ⟨fun h => absurd h (decodeRoute_ne_panic hflag), fun h => absurd hflag h.1⟩
  rw [decodeRoute]
  simp only [if_neg hflag, Outcome.bind_eq_panic_iff, Outcome.index_eq_panic_iff]
  -- with a length byte there, the slice behind it is checked
  refine (or_iff_left ?_).trans (and_iff_right hflag).symm
  rintro ⟨rl, -, h⟩
  split at h
  · cases h
  · rename_i hfit
    have hle : offset + 1 ≤ offset + 1 + rl.toNat ∧ offset + 1 + rl.toNat ≤ data.length := by
      omega
    rw [Outcome.slice, if_pos hle] at h
    cases h

theorem decodePayload_ne_panic (payload : List UInt8) :
    decodePayload z flag payload ≠ .panic := by
  rw [decodePayload]
  split
  · split <;> simp
  · simp

/-- **`Decode` panics exactly on a panic of the route field.** -/
theorem decode_eq_panic_iff (rest : List UInt8) (hne : rest ≠ []) :
    decode z dict (flag :: rest) = .panic ↔
      invalidType ((flag >>> 1) &&& msgTypeMask) = false ∧
      decodeRouteField dict flag ((flag >>> 1) &&& msgTypeMask) (flag :: rest)
        (decodeIDField ((flag >>> 1) &&& msgTypeMask) (flag :: rest) 1).2 = .panic := by
  have hpos : 0 < rest.length := List.length_pos_iff.2 hne
  have hhead : ¬ (flag :: rest).length < msgHeadLength := by
    simp only [msgHeadLength, List.length_cons]
    omega
  rw [decode, if_neg hhead]
  simp only [Outcome.index, List.getElem?_cons_zero, Outcome.ok_bind]
  cases hvalid : invalidType ((flag >>> 1) &&& msgTypeMask) with
  | true => simp
  | false =>
    simp only [Bool.false_eq_true, if_false, true_and, Outcome.bind_eq_panic_iff]
    -- behind the route the offset is checked before the payload is sliced
    refine or_iff_left ?_
    rintro ⟨⟨route, compressed, offset⟩, -, h⟩
    split at h
    · cases h
    · rename_i hfit
      rw [Outcome.sliceFrom, if_pos (by simpa using hfit)] at h
      simp only [Outcome.ok_bind, Outcome.bind_eq_panic_iff, Outcome.pure_eq, reduceCtorEq,
        and_false, exists_false, or_false] at h
      exact decodePayload_ne_panic _ h

/-- **`Decode` is safe exactly off the cut requests.** On every other
input it returns a message or an error. -/
theorem decode_ne_panic_iff (z : Zlib) (dict : Dictionary) (data : List UInt8) :
    decode z dict data ≠ .panic ↔ ¬ CutRequest data := by
  refine not_congr ?_
  match data with
  | [] =>
    refine ⟨fun h => by simp [decode, msgHeadLength] at h, ?_⟩
    rintro ⟨flag, run, last, heq, -⟩
    cases heq
  | [b] =>
    refine ⟨fun h => by simp [decode, msgHeadLength] at h, ?_⟩
    rintro ⟨flag, run, last, heq, -⟩
    simp at heq
  | flag :: c :: cs =>
    rw [decode_eq_panic_iff (c :: cs) (by simp)]
    constructor
    · rintro ⟨hvalid, hpanic⟩
      rw [decodeRouteField] at hpanic
      split at hpanic
      · rename_i hroutable
        obtain ⟨hflag, hlen⟩ := decodeRoute_eq_panic_iff.1 hpanic
        rcases type_cases hvalid with ht | ht | ht
        · rw [ht, decodeIDField, if_pos (Or.inl rfl)] at hlen
          obtain ⟨run, last, heq, hrun, hlast⟩ := (length_le_decodeID_iff (by simp)).1 hlen
          exact ⟨flag, run, last, by rw [heq], ht, hflag, hrun, hlast⟩
        · -- a notification has no id, so its length byte is the second byte
          rw [ht, decodeIDField, if_neg (by decide)] at hlen
          simp at hlen
        · -- and a response has no route
          rw [ht] at hroutable
          exact absurd hroutable (by decide)
      · cases hpanic
    · rintro ⟨flag', run, last, heq, ht, hflag, hrun, hlast⟩
      obtain ⟨rfl, hrest⟩ := List.cons.inj heq
      rw [ht]
      refine ⟨by decide, ?_⟩
      rw [decodeRouteField, if_pos (by decide), decodeRoute_eq_panic_iff]
      refine ⟨hflag, ?_⟩
      rw [decodeIDField, if_pos (Or.inl rfl)]
      exact (length_le_decodeID_iff (by simp)).2 ⟨run, last, hrest, hrun, hlast⟩

/-- **The two-byte request `00 05` makes `Decode` panic**, whatever the
dictionary: its id is `5` and the length of its route is missing. -/
theorem decode_panics : ¬ ∀ (z : Zlib) (dict : Dictionary) (data : List UInt8),
    decode z dict data ≠ .panic := by
  intro h
  exact h ⟨.ok, .ok⟩ .empty [0x00, 0x05] (by decide)

end Messages

end Nrpc
