import Bop.Json.RoundTrip

/-!
# Values That Survive a Round Trip

Writing a value and reading it back replaces the stray bytes of its strings,
so it is the identity on values that have none. Everything the scanner has read
is such a value, because it replaces stray bytes itself: that is an invariant
of the scanner, kept by every byte.

## Main definitions

* `Sane`: A value without stray bytes.
* `Frame.Sane`, `Mode.Sane`, `State.Sane`: The invariant.

## Theorems

* `sane_step`: One byte keeps the invariant.
* `sane_parse`: What was read has no stray bytes.
* `parse_render_sane`: Such a value reads back as itself.
-/

namespace Bop

namespace Json

/-- No string in the value has a stray byte. -/
def Sane (v : Json) : Prop := sanitize v = v

/-- Everything read since the bracket was opened is sane. -/
def Frame.Sane : Frame → Prop
  | .arr done => sanitizeElements done = done
  | .obj done => sanitizeMembers done = done
  | .member done key => sanitizeMembers done = done ∧ Utf8.sanitize key = key

/-- So is what is being read. -/
def Mode.Sane : Mode → Prop
  | .word _ v => Json.Sane v
  | _ => True

/-- The invariant of the scanner. -/
def State.Sane : State → Prop
  | .bad => True
  | .top v => Json.Sane v
  | .run st mode => (∀ f ∈ st, f.Sane) ∧ mode.Sane

/-- What a literal denotes has no stray byte. -/
theorem sanitize_unquote (ps : List Piece) : Utf8.sanitize (unquote ps) = unquote ps := by
  rw [unquote]
  exact Utf8.sanitize_encode _

theorem sane_str (s : Bytes) : Sane (.str s) ↔ Utf8.sanitize s = s := by
  rw [Sane, sanitize, Json.str.injEq]

theorem sane_arr (xs : List Json) : Sane (.arr xs) ↔ sanitizeElements xs = xs := by
  rw [Sane, sanitize, Json.arr.injEq]

theorem sane_obj (ms : List (Bytes × Json)) : Sane (.obj ms) ↔ sanitizeMembers ms = ms := by
  rw [Sane, sanitize, Json.obj.injEq]

/-- The values of an array are sane one by one. -/
theorem sane_elements (xs : List Json) :
    sanitizeElements xs = xs ↔ ∀ x ∈ xs, Sane x := by
  induction xs with
  | nil => exact ⟨fun _ x hx => absurd hx List.not_mem_nil, fun _ => rfl⟩
  | cons x xs ih => rw [sanitizeElements, List.cons.injEq, ih, List.forall_mem_cons, Sane]

/-- So are the members of an object. -/
theorem sane_members (ms : List (Bytes × Json)) :
    sanitizeMembers ms = ms ↔ ∀ m ∈ ms, Utf8.sanitize m.1 = m.1 ∧ Sane m.2 := by
  induction ms with
  | nil => exact ⟨fun _ m hm => absurd hm List.not_mem_nil, fun _ => rfl⟩
  | cons m ms ih =>
      rcases m with ⟨k, v⟩
      rw [sanitizeMembers, List.cons.injEq, ih, List.forall_mem_cons, Prod.mk.injEq, Sane]

/-! ### The scanner -/

section Scanner

variable (st : List Frame) (h : ∀ f ∈ st, f.Sane)

include h

/-- A complete value goes into the innermost bracket. -/
theorem sane_pushValue (v : Json) (hv : Sane v) : (pushValue v st).Sane := by
  cases st with
  | nil => exact hv
  | cons f st =>
      rcases List.forall_mem_cons.mp h with ⟨hf, hst⟩
      cases f with
      | obj done => trivial
      | arr done =>
          refine ⟨List.forall_mem_cons.mpr ⟨?_, hst⟩, trivial⟩
          refine (sane_elements _).mpr fun x hx => ?_
          rcases List.mem_append.mp hx with hx | hx
          · exact (sane_elements done).mp hf x hx
          · rw [List.mem_singleton.mp hx]
            exact hv
      | member done key =>
          refine ⟨List.forall_mem_cons.mpr ⟨?_, hst⟩, trivial⟩
          refine (sane_members _).mpr fun m hm => ?_
          rcases List.mem_append.mp hm with hm | hm
          · exact (sane_members done).mp hf.1 m hm
          · rw [List.mem_singleton.mp hm]
            exact ⟨hf.2, hv⟩

/-- A complete literal is a key or a value. -/
theorem sane_closeString (ps : List Piece) : (closeString ps st).Sane := by
  have hvalue : Sane (.str (unquote ps)) := (sane_str _).mpr (sanitize_unquote ps)
  cases st with
  | nil => exact sane_pushValue [] h _ hvalue
  | cons f rest =>
      cases f with
      | obj done =>
          rcases List.forall_mem_cons.mp h with ⟨hf, hrest⟩
          exact ⟨List.forall_mem_cons.mpr ⟨⟨hf, sanitize_unquote ps⟩, hrest⟩, trivial⟩
      | arr done => exact sane_pushValue _ h _ hvalue
      | member done key => exact sane_pushValue _ h _ hvalue

/-- A bracket opens on nothing. -/
theorem sane_openFrame (f : Frame) (mode : Mode) (hf : f.Sane) (hmode : mode.Sane) :
    (openFrame f mode st).Sane := by
  rw [openFrame]
  split
  · exact ⟨List.forall_mem_cons.mpr ⟨hf, h⟩, hmode⟩
  · trivial

/-- A bracket closes on what was read. -/
theorem sane_closeFrame (c : UInt8) : (closeFrame c st).Sane := by
  cases st with
  | nil => trivial
  | cons f rest =>
      rcases List.forall_mem_cons.mp h with ⟨hf, hrest⟩
      cases f with
      | arr done =>
          rw [closeFrame]
          split
          · exact sane_pushValue rest hrest _ ((sane_arr done).mpr hf)
          · trivial
      | obj done =>
          rw [closeFrame]
          split
          · exact sane_pushValue rest hrest _ ((sane_obj done).mpr hf)
          · trivial
      | member done key => trivial

theorem sane_beginValue (c : UInt8) : (beginValue st c).Sane := by
  unfold beginValue
  split
  · exact sane_openFrame st h _ _ rfl trivial
  · split
    · exact sane_openFrame st h _ _ rfl trivial
    · repeat' split
      all_goals first | exact ⟨h, trivial⟩ | exact ⟨h, rfl⟩ | trivial

theorem sane_endValue (c : UInt8) : (endValue st c).Sane := by
  unfold endValue
  split
  · split
    · exact ⟨h, trivial⟩
    · exact ⟨h, trivial⟩
    · trivial
  · exact sane_closeFrame st h c

end Scanner

/-- One byte outside a number keeps the invariant. -/
theorem sane_stepSettled (s : State) (c : UInt8) (h : s.Sane) : (stepSettled s c).Sane := by
  -- By the mode. Every frame below stays what it was, unless the byte closes one.
  cases s with
  | bad => trivial
  | top v =>
      rw [stepSettled]
      split
      · exact h
      · trivial
  | run st mode =>
      have hst := h.1
      cases mode with
      | value orEmpty =>
          rw [stepSettled]
          split
          · exact ⟨hst, trivial⟩
          · split
            · exact sane_closeFrame st hst c
            · exact sane_beginValue st hst c
      | key orEmpty =>
          rw [stepSettled]
          split
          · exact ⟨hst, trivial⟩
          · split
            · exact sane_closeFrame st hst c
            · split
              · exact ⟨hst, trivial⟩
              · trivial
      | colon =>
          rw [stepSettled]
          repeat' split
          all_goals first | exact ⟨hst, trivial⟩ | trivial
      | after =>
          rw [stepSettled]
          split
          · exact ⟨hst, trivial⟩
          · exact sane_endValue st hst c
      | str ps =>
          rw [stepSettled]
          split
          · exact sane_closeString st hst ps
          · repeat' split
            all_goals first | exact ⟨hst, trivial⟩ | trivial
      | esc ps =>
          rw [stepSettled]
          repeat' split
          all_goals first | exact ⟨hst, trivial⟩ | trivial
      | hex ps count acc =>
          rw [stepSettled]
          repeat' split
          all_goals first | exact ⟨hst, trivial⟩ | trivial
      | num text => trivial
      | word rest v =>
          have hv : Sane v := h.2
          cases rest with
          | nil => trivial
          | cons d rest =>
              cases rest with
              | nil =>
                  rw [stepSettled]
                  split
                  · exact sane_pushValue st hst v hv
                  · trivial
              | cons d' rest =>
                  rw [stepSettled]
                  · split
                    · exact ⟨hst, hv⟩
                    · trivial
                  · exact fun h => List.cons_ne_nil _ _ h

/-- Completing a number keeps the invariant. -/
theorem sane_settle (s : State) (h : s.Sane) : (settle s).Sane := by
  unfold settle
  split
  · split
    · exact sane_pushValue _ h.1 _ rfl
    · trivial
  · exact h

/-- One byte keeps the invariant. -/
theorem sane_step (s : State) (c : UInt8) (h : s.Sane) : (step s c).Sane := by
  unfold step
  split
  · split
    · exact ⟨h.1, trivial⟩
    · exact sane_stepSettled _ c (sane_settle _ h)
  · exact sane_stepSettled s c h

/-- A text keeps the invariant. -/
theorem sane_run (data : Bytes) (s : State) (h : s.Sane) : (run s data).Sane := by
  induction data generalizing s with
  | nil => exact h
  | cons c rest ih => exact ih (step s c) (sane_step s c h)

/-- What was read has no stray bytes. -/
theorem sane_parse (data : Bytes) (v : Json) (h : parse data = some v) : Sane v := by
  have hstart : start.Sane := ⟨fun f hf => absurd hf List.not_mem_nil, trivial⟩
  have hsane := sane_settle _ (sane_run data start hstart)
  rw [parse] at h
  split at h
  · next heq =>
      rw [heq] at hsane
      cases h
      exact hsane
  · cases h

/-- A sane value that is not too deep reads back as itself. -/
theorem parse_render_sane (v : Json) (hdepth : depth v ≤ maxNestingDepth) (h : Sane v) :
    parse (render v) = some v := by
  rw [parse_render v hdepth, h]

end Json

end Bop
