import Nrpc.Messages.Roundtrip
/-!
# What two messages with one encoding share

The fields of an encoding say where they end, with one exception: the
length of a written-out route is kept in one byte, whatever it is. A route
and the same route with 256 bytes behind it have the same length byte, so
the bytes behind the shorter one may be read as its payload or as the end
of the longer one (`encode_ambiguous`). No other pair of routes can be
confused, in any dictionary, and no messages of types that do not carry
their route (`encode_unambiguous_iff`).
-/

namespace Nrpc

namespace Messages

variable {z : Zlib} {dict : Dictionary} {m₁ m₂ : Message} {r₁ r₂ : GoString}
variable {p₁ p₂ : List UInt8}

/-! ## The property and the condition -/

/-- **Two messages are the same to a reader**: they agree on everything an
encoding of their type carries. -/
structure SameMessage (m₁ m₂ : Message) : Prop where
  type : m₁.type = m₂.type
  err : m₁.err = m₂.err
  data : m₁.data = m₂.data
  id : m₁.type = request ∨ m₁.type = response → m₁.id = m₂.id
  route : m₁.type = request ∨ m₁.type = notify → m₁.route = m₂.route

/-- One route is the other and a positive multiple of 256 bytes. -/
def Extends (r₁ r₂ : GoString) : Prop := ∃ more, more ≠ [] ∧ more.length % 256 = 0 ∧ r₂ = r₁ ++ more

/-- **Routes that can be confused**: both are written out, and one extends
the other. -/
def Confusable (dict : Dictionary) (r₁ r₂ : GoString) : Prop :=
  dict.routes.get? r₁ = none ∧ dict.routes.get? r₂ = none ∧ (Extends r₁ r₂ ∨ Extends r₂ r₁)

/-- **Messages that can be confused**: of one type, which carries its route,
along routes that can be. -/
def ConfusableTypes (dict : Dictionary) (t₁ t₂ : UInt8) (r₁ r₂ : GoString) : Prop :=
  t₁ = t₂ ∧ routable t₁ = true ∧ Confusable dict r₁ r₂

/-! ## The fields -/

theorem routable_iff {t : UInt8} : routable t = true ↔ t = request ∨ t = notify := by
  simp [routable]

/-- An id field ends where its bytes say. -/
theorem encodeID_append_inj {n₁ n₂ : UInt64} (h : encodeID n₁ ++ p₁ = encodeID n₂ ++ p₂) :
    n₁ = n₂ ∧ p₁ = p₂ := by
  have hread₁ := decodeID_encodeID [] p₁ n₁
  have hread₂ := decodeID_encodeID [] p₂ n₂
  rw [h, hread₂] at hread₁
  obtain ⟨rfl, -⟩ := Prod.mk.inj hread₁
  exact ⟨rfl, List.append_cancel_left h⟩

/-- A code field is two bytes that give the code. -/
theorem encodeRoute_some_inj {c₁ c₂ : UInt16}
    (h : encodeRoute (some c₁) r₁ ++ p₁ = encodeRoute (some c₂) r₂ ++ p₂) :
    c₁ = c₂ ∧ p₁ = p₂ := by
  simp only [encodeRoute, List.cons_append, List.nil_append, List.cons.injEq] at h
  obtain ⟨hhi, hlo, hp⟩ := h
  refine ⟨?_, hp⟩
  rw [← code_bytes c₁, ← code_bytes c₂, hhi, hlo]

/-- **Written-out routes with one length byte are one route, unless one
extends the other.** -/
theorem encodeRoute_none_inj (h : encodeRoute none r₁ ++ p₁ = encodeRoute none r₂ ++ p₂)
    (hext : ¬ (Extends r₁ r₂ ∨ Extends r₂ r₁)) : r₁ = r₂ ∧ p₁ = p₂ := by
  simp only [encodeRoute, List.cons_append, List.cons.injEq] at h
  obtain ⟨hbyte, happ⟩ := h
  have hmod : r₁.length % 256 = r₂.length % 256 := by
    have hnat := congrArg UInt8.toNat hbyte
    simpa only [UInt8.toNat_ofNat'] using hnat
  have key : ∀ {r r' p p' : GoString}, r ++ p = r' ++ p' → r.length ≤ r'.length →
      r.length % 256 = r'.length % 256 → ¬ Extends r r' → r = r' := by
    intro r r' p p' happ hle hmod hext
    -- of two parts at the front of one list the shorter starts the longer
    obtain ⟨more, rfl⟩ := List.prefix_of_prefix_length_le ⟨p, happ⟩ ⟨p', rfl⟩ hle
    by_contra hne
    refine hext ⟨more, ?_, ?_, rfl⟩
    · rintro rfl
      exact hne (List.append_nil r).symm
    · rw [List.length_append] at hmod
      omega
  have hr : r₁ = r₂ := by
    rcases Nat.le_total r₁.length r₂.length with hle | hle
    · exact key happ hle hmod fun h => hext (Or.inl h)
    · exact (key happ.symm hle hmod.symm fun h => hext (Or.inr h)).symm
  subst hr
  exact ⟨rfl, List.append_cancel_left happ⟩

/-- **The payload field gives the data**: the deflated forms of two
payloads differ. -/
theorem payload_inj {gz : Bool} {d₁ d₂ : List UInt8}
    (h₁ : if gz then z.inflateData p₁ = .ok d₁ else p₁ = d₁)
    (h₂ : if gz then z.inflateData p₁ = .ok d₂ else p₁ = d₂) : d₁ = d₂ := by
  cases gz with
  | true =>
    simp only [if_true] at h₁ h₂
    exact Except.ok.inj (h₁.symm.trans h₂)
  | false =>
    simp only [Bool.false_eq_true, if_false] at h₁ h₂
    exact h₁.symm.trans h₂

/-- The route fields of two messages with the same bits. -/
theorem routeField_append_inj (hm : dict.Mirrored) (htype : m₁.type = m₂.type)
    (hsome : (dict.routes.get? m₁.route).isSome ↔ (dict.routes.get? m₂.route).isSome)
    (hsafe : ¬ ConfusableTypes dict m₁.type m₂.type m₁.route m₂.route)
    (h : routeField dict m₁ ++ p₁ = routeField dict m₂ ++ p₂) :
    (routable m₁.type = true → m₁.route = m₂.route) ∧ p₁ = p₂ := by
  by_cases hroutable : routable m₁.type = true
  · have hroutable₂ : routable m₂.type = true := htype ▸ hroutable
    simp only [routeField, hroutable, hroutable₂, if_true] at h
    rcases hcode₁ : dict.routes.get? m₁.route with _ | c₁
    · rcases hcode₂ : dict.routes.get? m₂.route with _ | c₂
      · rw [hcode₁, hcode₂] at h
        have hext : ¬ (Extends m₁.route m₂.route ∨ Extends m₂.route m₁.route) :=
          fun hext => hsafe ⟨htype, hroutable, hcode₁, hcode₂, hext⟩
        obtain ⟨hr, hp⟩ := encodeRoute_none_inj h hext
        exact ⟨fun _ => hr, hp⟩
      · simp [hcode₁, hcode₂] at hsome
    · rcases hcode₂ : dict.routes.get? m₂.route with _ | c₂
      · simp [hcode₁, hcode₂] at hsome
      · rw [hcode₁, hcode₂] at h
        obtain ⟨rfl, hp⟩ := encodeRoute_some_inj h
        -- one code has one route
        have hr := ((hm _ _).1 hcode₁).symm.trans ((hm _ _).1 hcode₂)
        exact ⟨fun _ => Option.some.inj hr, hp⟩
  · have hroutable₂ : ¬ routable m₂.type = true := htype ▸ hroutable
    simp only [routeField, hroutable, hroutable₂] at h
    exact ⟨fun hr => absurd hr hroutable, h⟩

/-- The id fields of two messages of one type. -/
theorem idField_append_inj (htype : m₁.type = m₂.type)
    (h : idField m₁ ++ p₁ = idField m₂ ++ p₂) :
    (m₁.type = request ∨ m₁.type = response → m₁.id = m₂.id) ∧ p₁ = p₂ := by
  by_cases hhas : m₁.type = request ∨ m₁.type = response
  · have hhas₂ : m₂.type = request ∨ m₂.type = response := htype ▸ hhas
    rw [idField, idField, if_pos hhas, if_pos hhas₂] at h
    obtain ⟨hid, hp⟩ := encodeID_append_inj h
    exact ⟨fun _ => hid, hp⟩
  · have hhas₂ : ¬ (m₂.type = request ∨ m₂.type = response) := htype ▸ hhas
    rw [idField, idField, if_neg hhas, if_neg hhas₂] at h
    exact ⟨fun hh => absurd hh hhas, h⟩

/-! ## The message -/

theorem invalidType_of_encode {dataCompression : Bool} {m : Message} {bs : List UInt8}
    (h : (encode z dict dataCompression m).1 = .ok bs) : invalidType m.type = false := by
  cases hvalid : invalidType m.type with
  | false => rfl
  | true =>
    rw [encode, if_pos hvalid] at h
    cases h

/-- **One encoding is one message**, as long as the messages cannot be
confused. -/
theorem sameMessage_of_encode_eq (hz : z.Inverse) (hm : dict.Mirrored) {dataCompression : Bool}
    {bs : List UInt8} (hsafe : ¬ ConfusableTypes dict m₁.type m₂.type m₁.route m₂.route)
    (h₁ : (encode z dict dataCompression m₁).1 = .ok bs)
    (h₂ : (encode z dict dataCompression m₂).1 = .ok bs) : SameMessage m₁ m₂ := by
  have hvalid₁ := invalidType_of_encode h₁
  have hvalid₂ := invalidType_of_encode h₂
  obtain ⟨gz₁, payload₁, henc₁, hdata₁⟩ := encode_eq hz dict dataCompression hvalid₁
  obtain ⟨gz₂, payload₂, henc₂, hdata₂⟩ := encode_eq hz dict dataCompression hvalid₂
  obtain ⟨htype₁, hcode₁, herr₁, hgz₁⟩ :=
    encodeFlag_bits hvalid₁ (dict.routes.get? m₁.route) gz₁
  obtain ⟨htype₂, hcode₂, herr₂, hgz₂⟩ :=
    encodeFlag_bits hvalid₂ (dict.routes.get? m₂.route) gz₂
  have hbs := Except.ok.inj ((henc₁.symm.trans h₁).trans (h₂.symm.trans henc₂))
  obtain ⟨hflag, hrest⟩ := List.cons.inj hbs
  rw [hflag] at htype₁ hcode₁ herr₁ hgz₁
  have htype : m₁.type = m₂.type := htype₁.symm.trans htype₂
  have hgz : gz₁ = gz₂ := Bool.eq_iff_iff.2 (hgz₁.symm.trans hgz₂)
  subst hgz
  obtain ⟨hid, hrest⟩ := idField_append_inj htype hrest
  obtain ⟨hroute, hpayload⟩ :=
    routeField_append_inj hm htype (hcode₁.symm.trans hcode₂) hsafe hrest
  subst hpayload
  refine ⟨htype, herr₁.symm.trans herr₂, payload_inj hdata₁ hdata₂, hid, ?_⟩
  intro hr
  exact hroute (routable_iff.2 hr)

/-! ## Routes that are confused -/

/-- A message of a type, along a route. -/
def along (t : UInt8) (route : GoString) (data : List UInt8) : Message :=
  ⟨t, 0, route, data, false, false⟩

/-- A notification. -/
def notification (route : GoString) (data : List UInt8) : Message := along notify route data

/-- The encoding of a message along a written-out route: what stands in
front of the route depends on its type only. -/
theorem encode_along {t : UInt8} (ht : routable t = true) {route : GoString}
    (hcode : dict.routes.get? route = none) (data : List UInt8) :
    (encode z dict false (along t route data)).1 =
      .ok (encodeFlag (along t [] []) none ::
        (idField (along t [] []) ++ UInt8.ofNat route.length :: (route ++ data))) := by
  have hvalid : invalidType t = false := by
    rcases routable_iff.1 ht with rfl | rfl <;> decide
  have hflag : encodeFlag (along t route data) none = encodeFlag (along t [] []) none := rfl
  rw [encode, if_neg (by simp [along, hvalid])]
  simp only [along] at hflag ⊢
  simp only [hcode, hflag, ht, if_true, Bool.false_eq_true, if_false, encodeRoute, idField]
  split <;> simp

/-- **A route and an extension of it are confused**: the bytes between them
are payload of one message and route of another. -/
theorem exists_encode_eq {t : UInt8} (ht : routable t = true) (h₁ : dict.routes.get? r₁ = none)
    (h₂ : dict.routes.get? r₂ = none) (hext : Extends r₁ r₂) :
    r₁ ≠ r₂ ∧ ∃ data bs, (encode z dict false (along t r₁ data)).1 = .ok bs ∧
      (encode z dict false (along t r₂ [])).1 = .ok bs := by
  obtain ⟨more, hmore, hmod, rfl⟩ := hext
  have hbyte : UInt8.ofNat (r₁ ++ more).length = UInt8.ofNat r₁.length := by
    refine UInt8.toNat_inj.1 ?_
    rw [UInt8.toNat_ofNat', UInt8.toNat_ofNat', List.length_append]
    omega
  refine ⟨?_, more, _, encode_along ht h₁ more, ?_⟩
  · intro heq
    exact hmore (List.self_eq_append_right.1 heq)
  · rw [encode_along ht h₂, hbyte, List.append_nil]

/-- **An encoding is unambiguous exactly off the confusable messages.** In
every reachable dictionary, two messages of given types along two given
routes that have one encoding, under either setting of the compression, are
the same to a reader, if and only if it is not the case that the types are
one that carries its route and the routes are both written out with one
extending the other by a multiple of 256 bytes. -/
theorem encode_unambiguous_iff (z : Zlib) (hz : z.Inverse) (dict : Dictionary)
    (hdict : Reachable dict) (t₁ t₂ : UInt8) (r₁ r₂ : GoString) :
    (∀ dataCompression m₁ m₂ bs, m₁.type = t₁ → m₂.type = t₂ → m₁.route = r₁ → m₂.route = r₂ →
      (encode z dict dataCompression m₁).1 = .ok bs →
      (encode z dict dataCompression m₂).1 = .ok bs → SameMessage m₁ m₂) ↔
    ¬ ConfusableTypes dict t₁ t₂ r₁ r₂ := by
  constructor
  · rintro h ⟨rfl, ht, h₁, h₂, hext | hext⟩
    · obtain ⟨hne, data, bs, henc₁, henc₂⟩ := exists_encode_eq (z := z) ht h₁ h₂ hext
      have hsame := h false _ _ bs rfl rfl rfl rfl henc₁ henc₂
      exact hne (hsame.route (routable_iff.1 ht))
    · obtain ⟨hne, data, bs, henc₂, henc₁⟩ := exists_encode_eq (z := z) ht h₂ h₁ hext
      have hsame := h false _ _ bs rfl rfl rfl rfl henc₁ henc₂
      exact hne (hsame.route (routable_iff.1 ht)).symm
  · rintro hsafe dataCompression m₁ m₂ bs rfl rfl rfl rfl h₁ h₂
    exact sameMessage_of_encode_eq hz (mirrored_of_reachable hdict) hsafe h₁ h₂

/-- Two short routes are told apart. -/
theorem encode_unambiguous_iff_room :
    Reachable roomDict ∧ ∀ dataCompression m₁ m₂ bs, m₁.type = request → m₂.type = request →
      m₁.route = lit "room.leave" → m₂.route = lit "room.kick" →
      (encode headerZlib roomDict dataCompression m₁).1 = .ok bs →
      (encode headerZlib roomDict dataCompression m₂).1 = .ok bs → SameMessage m₁ m₂ := by
  have hdict : Reachable roomDict := .call .empty (by decide)
  refine ⟨hdict, (encode_unambiguous_iff headerZlib (fun x => ⟨0x78 :: 0x9C :: x, rfl, rfl⟩)
    roomDict hdict request request _ _).2 ?_⟩
  -- 256 bytes do not fit into either route
  have hshort : ∀ r r' : GoString, r'.length < 256 → ¬ Extends r r' := by
    rintro r r' hlt ⟨more, hmore, hmod, rfl⟩
    have hpos := List.length_pos_iff.2 hmore
    rw [List.length_append] at hlt
    omega
  rintro ⟨-, -, -, -, hext | hext⟩
  · exact hshort _ _ (by decide) hext
  · exact hshort _ _ (by decide) hext

/-- **Two messages with one encoding.** A notification along the empty
route with 256 bytes of payload, and one along the route these bytes are,
without payload. -/
theorem encode_ambiguous :
    let short := notification [] (List.replicate 256 0x61)
    let long := notification (List.replicate 256 0x61) []
    ∃ bs, (encode headerZlib .empty false short).1 = .ok bs ∧
      (encode headerZlib .empty false long).1 = .ok bs ∧
      short.route ≠ long.route ∧ short.data ≠ long.data ∧ ¬ SameMessage short long := by
  intro short long
  have hroute : short.route ≠ long.route := by decide
  refine ⟨_, encode_along (by decide) rfl _, ?_, hroute, by decide, ?_⟩
  · exact (encode_along (by decide) rfl _).trans (by decide +kernel)
  · intro hsame
    exact hroute (hsame.route (Or.inr rfl))

end Messages

end Nrpc
