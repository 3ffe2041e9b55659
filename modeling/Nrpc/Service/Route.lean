import Nrpc.Service.Model.Component
/-!
# The grammar of routes

A route is two or three names between dots: `Decode` reads the names and
`String` prints them. `Decode` accepts the strings with one or two dots and
no blank field, `String` gives back what was decoded, and `Decode` gives
back what was printed of names that are not blank and have no dot
(`decodeRoute_grammar`).
-/

namespace Nrpc

namespace Service

variable {s : GoString} {r : Route}

/-- A name a route can carry: it has a visible character and no dot. -/
def Legible (s : GoString) : Prop := trimSpace s ≠ [] ∧ dot ∉ s

/-- **The routes that are read back from their text**: their names are
legible, and the server type may be left out. -/
structure Route.Printable (r : Route) : Prop where
  svType : r.svType = [] ∨ Legible r.svType
  service : Legible r.service
  method : Legible r.method

/-- No field of a string is blank. -/
def Filled (s : GoString) : Prop := ∀ field ∈ s.splitOn dot, trimSpace field ≠ []

/-- **The grammar**: two or three fields, none of them blank. -/
def IsRoute (s : GoString) : Prop := (s.count dot = 1 ∨ s.count dot = 2) ∧ Filled s

theorem Legible.ne_nil (h : Legible s) : s ≠ [] := by
  rintro rfl
  exact h.1 (by decide +kernel)

theorem not_filled_iff : ¬ Filled s ↔ ∃ field ∈ s.splitOn dot, trimSpace field = [] := by
  simp only [Filled, not_forall, not_not, exists_prop]

/-- The fields of the text of a route. -/
theorem splitOn_string (h : r.Printable) :
    r.string.splitOn dot = [r.service, r.method] ∧ r.svType = [] ∨
      r.string.splitOn dot = [r.svType, r.service, r.method] ∧ Legible r.svType := by
  rcases h.svType with hnil | hsv
  · refine Or.inl ⟨splitOn_eq_two_iff.2 ⟨h.service.2, h.method.2, ?_⟩, hnil⟩
    exact if_neg (not_not.2 hnil)
  · refine Or.inr ⟨splitOn_eq_three_iff.2 ⟨hsv.2, h.service.2, h.method.2, ?_⟩, hsv⟩
    exact if_pos hsv.ne_nil

/-- **A printable route is read back.** -/
theorem decodeRoute_string (h : r.Printable) : decodeRoute r.string = .ok r := by
  rcases splitOn_string h with ⟨hsplit, hsv⟩ | ⟨hsplit, hsv⟩
  · have hfilled : ¬ ∃ field ∈ [r.service, r.method], trimSpace field = [] := by
      simp [h.service.1, h.method.1]
    obtain ⟨svType, service, method⟩ := r
    obtain rfl : svType = [] := hsv
    simp only [decodeRoute, hsplit, if_neg hfilled]
  · have hfilled : ¬ ∃ field ∈ [r.svType, r.service, r.method], trimSpace field = [] := by
      simp [hsv.1, h.service.1, h.method.1]
    simp only [decodeRoute, hsplit, if_neg hfilled]

/-- The text of a route with one dot or two. -/
theorem exists_printable (h : IsRoute s) : ∃ r : Route, r.Printable ∧ s = r.string := by
  obtain ⟨hcount, hfilled⟩ := h
  have hlength := length_splitOn dot s
  unfold Filled at hfilled
  rcases hsplit : s.splitOn dot with _ | ⟨a, _ | ⟨b, _ | ⟨c, _ | ⟨d, rest⟩⟩⟩⟩
  · exact absurd hsplit (List.splitOn_ne_nil dot s)
  · rw [hsplit, List.length_singleton] at hlength
    omega
  · obtain ⟨ha, hb, rfl⟩ := splitOn_eq_two_iff.1 hsplit
    rw [hsplit] at hfilled
    exact ⟨⟨[], a, b⟩, ⟨Or.inl rfl, ⟨hfilled a (by simp), ha⟩, ⟨hfilled b (by simp), hb⟩⟩, rfl⟩
  · obtain ⟨ha, hb, hc, rfl⟩ := splitOn_eq_three_iff.1 hsplit
    rw [hsplit] at hfilled
    have hsv : Legible a := ⟨hfilled a (by simp), ha⟩
    refine ⟨⟨a, b, c⟩, ⟨Or.inr hsv, ⟨hfilled b (by simp), hb⟩, ⟨hfilled c (by simp), hc⟩⟩, ?_⟩
    exact (if_pos hsv.ne_nil).symm
  · rw [hsplit] at hlength
    simp only [List.length_cons] at hlength
    omega

/-- A blank field is refused before the fields are counted. -/
theorem decodeRoute_of_blank (h : ¬ Filled s) :
    decodeRoute s = .error errRouteFieldCantEmpty := if_pos (not_filled_iff.1 h)

/-- Another number of fields is refused. -/
theorem decodeRoute_of_count (hfilled : Filled s) (hroute : ¬ IsRoute s) :
    decodeRoute s = .error errInvalidRoute := by
  have hlength := length_splitOn dot s
  have hcount : ¬ (s.count dot = 1 ∨ s.count dot = 2) := fun h => hroute ⟨h, hfilled⟩
  have hblank : ¬ ∃ field ∈ s.splitOn dot, trimSpace field = [] :=
    fun h => not_filled_iff.2 h hfilled
  simp only [decodeRoute, if_neg hblank]
  split
  · rename_i hsplit
    rw [hsplit] at hlength
    simp only [List.length_cons, List.length_nil] at hlength
    omega
  · rename_i hsplit
    rw [hsplit] at hlength
    simp only [List.length_cons, List.length_nil] at hlength
    omega
  · rfl

/-- A string in the grammar is the text of a printable route, which is what
it decodes to. -/
theorem exists_decodeRoute (h : IsRoute s) :
    ∃ r : Route, r.Printable ∧ s = r.string ∧ decodeRoute s = .ok r := by
  obtain ⟨r, hr, rfl⟩ := exists_printable h
  exact ⟨r, hr, rfl, decodeRoute_string hr⟩

/-- **What is decoded is the printable route with that text.** -/
theorem decodeRoute_eq_ok_iff : decodeRoute s = .ok r ↔ r.Printable ∧ s = r.string := by
  constructor
  · intro h
    by_cases hfilled : Filled s
    · by_cases hroute : IsRoute s
      · obtain ⟨r', hr', hs, hdecode⟩ := exists_decodeRoute hroute
        obtain rfl : r' = r := Except.ok.inj (hdecode.symm.trans h)
        exact ⟨hr', hs⟩
      · rw [decodeRoute_of_count hfilled hroute] at h
        cases h
    · rw [decodeRoute_of_blank hfilled] at h
      cases h
  · rintro ⟨hr, rfl⟩
    exact decodeRoute_string hr

/-- The text of a printable route is in the grammar. -/
theorem isRoute_string (h : r.Printable) : IsRoute r.string := by
  have hlength := length_splitOn dot r.string
  rcases splitOn_string h with ⟨hsplit, -⟩ | ⟨hsplit, hsv⟩
  · rw [hsplit] at hlength
    refine ⟨Or.inl (Nat.succ_injective hlength.symm), ?_⟩
    rw [Filled, hsplit]
    simp [h.service.1, h.method.1]
  · rw [hsplit] at hlength
    refine ⟨Or.inr (Nat.succ_injective hlength.symm), ?_⟩
    rw [Filled, hsplit]
    simp [hsv.1, h.service.1, h.method.1]

/-- The two errors, by what they say of the fields. -/
theorem decodeRoute_eq_error_iff {e : GoString} : decodeRoute s = .error e ↔
    ¬ Filled s ∧ e = errRouteFieldCantEmpty ∨
      (Filled s ∧ ¬ IsRoute s) ∧ e = errInvalidRoute := by
  by_cases hfilled : Filled s
  · by_cases hroute : IsRoute s
    · obtain ⟨r, -, -, hdecode⟩ := exists_decodeRoute hroute
      simp [hdecode, hfilled, hroute]
    · simp [decodeRoute_of_count hfilled hroute, hfilled, hroute, eq_comm]
  · simp [decodeRoute_of_blank hfilled, hfilled, eq_comm]

/-- **`Decode` accepts its grammar and is inverse to `String`.** -/
theorem decodeRoute_grammar :
    (∀ s, (∃ r, decodeRoute s = .ok r) ↔
      (s.count dot = 1 ∨ s.count dot = 2) ∧ ∀ field ∈ s.splitOn dot, trimSpace field ≠ []) ∧
    (∀ s r, decodeRoute s = .ok r → r.string = s) ∧
    (∀ r : Route, r.Printable → decodeRoute r.string = .ok r) ∧
    (∀ s, decodeRoute s = .error errRouteFieldCantEmpty ↔
      ∃ field ∈ s.splitOn dot, trimSpace field = []) ∧
    (∀ s, decodeRoute s = .error errInvalidRoute ↔
      (∀ field ∈ s.splitOn dot, trimSpace field ≠ []) ∧
        ¬ (s.count dot = 1 ∨ s.count dot = 2)) := by
  refine ⟨?_, ?_, fun r hr => decodeRoute_string hr, ?_, ?_⟩
  · intro s
    constructor
    · rintro ⟨r, h⟩
      obtain ⟨hr, rfl⟩ := decodeRoute_eq_ok_iff.1 h
      exact isRoute_string hr
    · intro h
      obtain ⟨r, -, -, hdecode⟩ := exists_decodeRoute h
      exact ⟨r, hdecode⟩
  · intro s r h
    exact (decodeRoute_eq_ok_iff.1 h).2.symm
  · intro s
    rw [decodeRoute_eq_error_iff, ← not_filled_iff, and_iff_left rfl]
    exact or_iff_left fun h => absurd h.2 (by decide)
  · intro s
    rw [decodeRoute_eq_error_iff, and_iff_left rfl, or_iff_right fun h => absurd h.2 (by decide)]
    -- among the filled strings the grammar only counts
    refine and_congr_right fun hfilled => not_congr ?_
    exact and_iff_left hfilled

end Service

end Nrpc
