import Bop.Json.RoundTrip

/-!
# Texts Cut Short

A document that is an object cannot be mistaken for a shorter one: what is left
of its text when the end is cut off is no document at all. The scanner is done
only when the last bracket closes, and whatever it accepts earlier would have to
be followed by white space alone.

## Theorems

* `run_top`: After a whole value there is only white space.
* `settle_run_num`: A text that starts as a number stays one.
* `parse_prefix_obj`: A proper prefix of an object is no document.
-/

namespace Bop

namespace Json

/-- There is no way back from a syntax error. -/
theorem run_bad (data : Bytes) : run .bad data = .bad := by
  induction data with
  | nil => rfl
  | cons c data ih => exact ih

/-- After a whole value there is only white space. -/
theorem run_top (v : Json) (data : Bytes) :
    run (.top v) data = if data.all isSpace then .top v else .bad := by
  induction data with
  | nil => rfl
  | cons c data ih =>
      change run (if isSpace c then .top v else .bad) data = _
      rw [List.all_cons]
      by_cases hc : isSpace c = true
      · rw [if_pos hc, ih, hc, Bool.true_and]
      · rw [if_neg hc, run_bad, Bool.eq_false_iff.mpr hc, Bool.false_and]
        rfl

/-- A value that is whole stays the value, whatever follows. -/
theorem settle_run_top (v w : Json) (data : Bytes) (h : settle (run (.top v) data) = .top w) :
    w = v ∧ data.all isSpace = true := by
  rw [run_top] at h
  by_cases hall : data.all isSpace = true
  · rw [if_pos hall] at h
    cases h
    exact ⟨rfl, hall⟩
  · rw [if_neg hall] at h
    cases h

/-- A number that is no part of anything is complete as a number, or is none. -/
theorem settle_num (text : Bytes) :
    (∃ n, settle (.run [] (.num text)) = .top (.num n)) ∨ settle (.run [] (.num text)) = .bad := by
  by_cases hvalid : isNumber text = true
  · exact Or.inl ⟨⟨text, hvalid⟩, dif_pos hvalid⟩
  · exact Or.inr (dif_neg hvalid)

/-- A number inside a bracket completes no document. -/
theorem settle_num_nested (f : Frame) (st : List Frame) (text : Bytes) (v : Json) :
    settle (.run (f :: st) (.num text)) ≠ .top v := by
  intro h
  by_cases hvalid : isNumber text = true
  · have hpush : settle (.run (f :: st) (.num text)) = pushValue (.num ⟨text, hvalid⟩) (f :: st) :=
      dif_pos hvalid
    rw [hpush] at h
    cases f with
    | arr | obj | member => cases h
  · have hbad : settle (.run (f :: st) (.num text)) = .bad := dif_neg hvalid
    rw [hbad] at h
    cases h

/-- A text that starts as a number stays one. -/
theorem settle_run_num (text data : Bytes) (w : Json)
    (h : settle (run (.run [] (.num text)) data) = .top w) : ∃ n, w = .num n := by
  induction data generalizing text with
  | nil =>
      rw [run_nil] at h
      rcases settle_num text with ⟨n, hn⟩ | hbad
      · rw [hn] at h
        cases h
        exact ⟨n, rfl⟩
      · rw [hbad] at h
        cases h
  | cons c data ih =>
      by_cases hmore : (numRun (text ++ [c])).isSome = true
      · have hstep : step (.run [] (.num text)) c = .run [] (.num (text ++ [c])) := if_pos hmore
        rw [run_cons, hstep] at h
        exact ih _ h
      · have hstep : step (.run [] (.num text)) c = stepSettled (settle (.run [] (.num text))) c :=
          if_neg hmore
        rw [run_cons, hstep] at h
        -- The number ends here, and the byte after it is read on its own.
        rcases settle_num text with ⟨n, hn⟩ | hbad
        · rw [hn] at h
          exact ⟨n, (settle_run_top _ w (c :: data) h).1⟩
        · rw [hbad] at h
          change settle (run .bad data) = _ at h
          rw [run_bad] at h
          cases h

/-- The text of an object ends with its bracket. -/
theorem render_obj_end (ms : List (Bytes × Json)) : ∃ t, render (.obj ms) = t ++ [125] := by
  cases ms with
  | nil => exact ⟨[123], by rw [render]; rfl⟩
  | cons m ms => exact ⟨_, by rw [render]; rfl⟩

/-- A proper prefix of an object is no document. -/
theorem parse_prefix_obj (ms : List (Bytes × Json)) (hdepth : depth (.obj ms) ≤ maxNestingDepth)
    (q : Bytes) (hq : q <+: render (.obj ms)) (hne : q ≠ render (.obj ms)) : parse q = none := by
  rcases hq with ⟨rest, hrest⟩
  -- The closing bracket is missing.
  have hbracket : (125 : UInt8) ∈ rest := by
    rcases render_obj_end ms with ⟨t, ht⟩
    have hnil : rest ≠ [] := fun hnil => hne (by rw [← hrest, hnil, List.append_nil])
    rcases List.eq_nil_or_concat rest with hnil' | ⟨front, b, rfl⟩
    · exact absurd hnil' hnil
    · rw [ht, List.concat_eq_append, ← List.append_assoc] at hrest
      rw [List.concat_eq_append, (List.append_inj' hrest rfl).2]
      exact List.mem_append_right _ List.mem_cons_self
  have hwhole : settle (run (run start q) rest) = .top (sanitize (.obj ms)) := by
    have hparse := parse_render _ hdepth
    rw [← run_append, hrest]
    unfold parse at hparse
    split at hparse
    · next v hv =>
        rw [hv, Option.some.inj hparse]
    · cases hparse
  cases hparse : parse q with
  | none => rfl
  | some w =>
      exfalso
      unfold parse at hparse
      split at hparse
      · next v hv =>
          cases hs : run start q with
          | bad =>
              rw [hs] at hv
              cases hv
          | top u =>
              rw [hs] at hwhole
              have hspace := (settle_run_top u _ rest hwhole).2
              exact absurd (List.all_eq_true.mp hspace 125 hbracket) (by decide)
          | run st mode =>
              rw [hs] at hv hwhole
              cases mode with
              | num text =>
                  cases st with
                  | nil =>
                      rcases settle_run_num text rest _ hwhole with ⟨n, hn⟩
                      cases hn
                  | cons f st => exact settle_num_nested f st text _ hv
              | _ => cases hv
      · cases hparse

end Json

end Bop
