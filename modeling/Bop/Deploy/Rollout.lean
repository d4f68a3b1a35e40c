import Bop.Deploy.Update

/-!
# What an Update Leaves

The updater runs unattended, and it may be stopped anywhere: by the timer's
service, by a power cut, in the middle of a command. The next run starts from
what is there, and so does the controller, which is started from whatever the
link `current` names.

What is linked is never touched: a release is unpacked into a directory of its
own, under a name no tag has, and gets its own name when it is whole. The link
is exchanged by one rename, and the directory it named before stays. So the link
always names a whole release, and the one a run found there is whole when the
run is over or stopped.

This needs the names to be apart. A release whose tag ends in `.partial` would
have the name another one is unpacked under, and the expression the tag is
checked with allows it; that there is none is a hypothesis here.

## Main definitions

* `Installed`: A directory holds what was published, and it was tried.
* `WholeLink`, `Deployable`: A link, and `current`, name such a directory.

## Theorems

* `unpack_withstands`, `swapTo_withstands`, `rollout_withstands`,
  `prune_withstands`: The parts.
-/

namespace Bop

namespace Deploy

open Prog

section Links

variable (out : Outside)

/-- The directory holds what a published archive unpacks to, which the published
    list of checksums has, and its `bop` ran. -/
def Installed (tag : Bytes) (t : Tree) : Prop :=
  ∃ archive sums, out.served tag (assetOf tag) archive ∧ out.served tag "checksums.txt" sums ∧
    Listed out.sha256 (assetOf tag) archive sums ∧ t = out.untar archive ∧ out.runs t

/-- A tag that is taken, and no name of a directory that is being unpacked. -/
def Taken (tag : Bytes) : Prop := tagName tag = true ∧ hasSuffix tag ".partial" = false

/-- The link names a release that is installed. -/
def WholeLink (h : Host) (link : Bytes) : Prop :=
  ∃ tag t, Taken tag ∧ link = releaseLink tag ∧ h.releases tag = some t ∧ Installed out tag t

/-- If there is a current release, it is installed. -/
def Deployable (h : Host) : Prop := ∀ link, h.current = some link → WholeLink out h link

theorem releaseLink_inj (a b : Bytes) (h : releaseLink a = releaseLink b) : a = b :=
  List.append_cancel_left h

theorem basename_taken (tag : Bytes) (h : Taken tag) : basename (releaseLink tag) = tag :=
  basename_release tag (tagName_no_slash tag h.1) (tagName_ne_nil tag h.1)

/-- Nothing is unpacked under the name of a release. -/
theorem ne_partialOf (tag other : Bytes) (h : Taken tag) : tag ≠ partialOf other := by
  rintro rfl
  have hsuffix : hasSuffix (partialOf other) ".partial" = true :=
    List.isSuffixOf_iff_suffix.mpr ⟨other, rfl⟩
  rw [h.2] at hsuffix
  cases hsuffix

variable {out}

/-- Other directories do not matter to a link. -/
theorem wholeLink_put (h : Host) (name link : Bytes) (t : Option Tree)
    (hw : WholeLink out h link) (hne : link ≠ releaseLink name) :
    WholeLink out (h.put name t) link := by
  rcases hw with ⟨tag, t', htaken, rfl, ht, hin⟩
  refine ⟨tag, t', htaken, rfl, ?_, hin⟩
  have hname : tag ≠ name := fun heq => hne (congrArg releaseLink heq)
  simp only [Host.put, if_neg hname]
  exact ht

/-- Other links do not matter to it. -/
theorem wholeLink_of_releases (h h' : Host) (link : Bytes) (heq : h'.releases = h.releases)
    (hw : WholeLink out h link) : WholeLink out h' link := by
  rcases hw with ⟨tag, t, htaken, hlink, ht, hin⟩
  exact ⟨tag, t, htaken, hlink, by rw [heq]; exact ht, hin⟩

end Links

/-! ### Commands under `set -e` -/

section Commands

variable {S : Semantics UpdateOp UpdateAns Host} {H : Host → UpdateOp → Host → Prop}
  {inv pre : Host → Prop} {β : Type}

/-- A command that has to succeed, if it does and if it does not. -/
theorem withstands_must (p : Script Bool) (good : Host → Prop)
    (hp : Withstands S H inv pre p (fun ok h => inv h ∧ (ok = true → good h))) :
    Withstands S H inv pre (must p)
      (fun r h => inv h ∧ (r = .ok () → good h) ∧ ∀ msg, r = .error msg → msg = []) := by
  refine withstands_bind _ p _ hp fun ok => ?_
  refine withstands_ret _ (fun h hmid => hmid.1) fun h hmid => ⟨hmid.1, ?_⟩
  cases ok with
  | true =>
      refine ⟨fun _ => hmid.2 rfl, fun msg heq => ?_⟩
      cases heq
  | false =>
      refine ⟨fun heq => ?_, fun msg heq => ?_⟩
      · cases heq
      · cases heq
        rfl

/-- And what comes after it. -/
theorem withstands_then {post : Except Bytes β → Host → Prop} (p : Script Bool)
    (wrap : Bytes → Bytes) (k : Unit → Script (Except Bytes β)) (good : Host → Prop)
    (hp : Withstands S H inv pre p (fun ok h => inv h ∧ (ok = true → good h)))
    (hok : Withstands S H inv good (k ()) post)
    (herr : ∀ h, inv h → post (.error (wrap [])) h) :
    Withstands S H inv pre (check (must p) wrap k) post := by
  refine withstands_check _ (must p) wrap k (withstands_must p good hp) ?_ ?_ ?_
  · exact fun _ => withstands_weaken hok (fun h hmid => hmid.2.1 rfl) (fun _ h => h)
      fun _ _ h => h
  · exact fun err h hmid => hmid.1
  · intro err h hmid
    rw [hmid.2.2 err rfl]
    exact herr h hmid.1

end Commands

/-! ### Unpacking -/

section Unpacking

variable (out : Outside) (h₀ : Host) (tag : Bytes)

/-- The link is as the run found it, and it does not name the new release. -/
def Aside (h : Host) : Prop :=
  h.current = h₀.current ∧
    ∀ link, h₀.current = some link → WholeLink out h link ∧ link ≠ releaseLink tag

variable {out h₀ tag}

/-- A change where the new release is, or is unpacked. -/
theorem aside_put (h : Host) (name : Bytes) (t : Option Tree)
    (hname : name = tag ∨ name = partialOf tag) (ha : Aside out h₀ tag h) :
    Aside out h₀ tag (h.put name t) := by
  refine ⟨ha.1, fun link hlink => ?_⟩
  rcases ha.2 link hlink with ⟨hw, hne⟩
  refine ⟨wholeLink_put h name link t hw ?_, hne⟩
  rcases hname with rfl | rfl
  · exact hne
  · rcases hw with ⟨other, _, htaken, rfl, _, _⟩
    exact fun heq => ne_partialOf other tag htaken (releaseLink_inj _ _ heq)

/-- The commands that make the new release. -/
def WorksOn (tag : Bytes) : UpdateOp → Prop
  | .removeTree name | .makeDir name | .untar _ name => name = tag ∨ name = partialOf tag
  | .rename src dst => src = partialOf tag ∧ dst = tag
  | .version _ => True
  | _ => False

/-- The two changes of a rename. -/
theorem aside_moved (h : Host) (t : Option Tree) (ha : Aside out h₀ tag h) :
    Aside out h₀ tag ((h.put (partialOf tag) none).put tag t) :=
  aside_put _ tag t (Or.inl rfl) (aside_put h (partialOf tag) none (Or.inr rfl) ha)

/-- Stopped half way, they leave the link alone. -/
theorem aside_half (o : UpdateOp) (ho : WorksOn tag o) (h h' : Host) (ha : Aside out h₀ tag h)
    (hdone : half h o h') : Aside out h₀ tag h' := by
  cases o with
  | removeTree name | makeDir name | untar _ name =>
      rcases hdone with ⟨t, rfl⟩
      exact aside_put h name t ho ha
  | rename src dst =>
      rcases ho with ⟨rfl, rfl⟩
      rcases hdone with rfl | ⟨t, _, _, rfl⟩
      · exact ha
      · exact aside_moved h _ ha
  | version _ =>
      rw [show h' = h from hdone]
      exact ha
  | _ => exact ho.elim

/-- And so they do when they succeed or fail. -/
theorem aside_sem (o : UpdateOp) (ho : WorksOn tag o) (h h' : Host) (x : UpdateAns o)
    (ha : Aside out h₀ tag h) (hsem : sem out h o x h') : Aside out h₀ tag h' := by
  cases o with
  | version _ =>
      rw [hsem.1]
      exact ha
  | removeTree name =>
      cases x with
      | false => exact aside_half _ ho h h' ha hsem
      | true =>
          rw [show h' = h.put name none from hsem]
          exact aside_put h name none ho ha
  | makeDir name =>
      cases x with
      | false => exact aside_half _ ho h h' ha hsem
      | true =>
          rw [show h' = _ from hsem]
          exact aside_put h name _ ho ha
  | untar archive name =>
      cases x with
      | false => exact aside_half _ ho h h' ha hsem
      | true =>
          rcases hsem with ⟨old, _, rfl⟩
          exact aside_put h name _ ho ha
  | rename src dst =>
      cases x with
      | false => exact aside_half _ ho h h' ha hsem
      | true =>
          rcases ho with ⟨rfl, rfl⟩
          rcases hsem with ⟨t, _, t', _, rfl⟩
          exact aside_moved h _ ha
  | _ => exact ho.elim

/-- One of them, and what it has done. -/
theorem withstands_work (o : UpdateOp) (ho : WorksOn tag o) (pre : Host → Prop)
    (post : UpdateAns o → Host → Prop) (hpre : ∀ h, pre h → Aside out h₀ tag h)
    (h : ∀ h x h', pre h → sem out h o x h' → post x h') :
    Withstands (sem out) half (Aside out h₀ tag) pre (cmd o)
      (fun x h => Aside out h₀ tag h ∧ post x h) :=
  withstands_op o _ hpre (fun h h' hw => aside_half o ho h h' (hpre h hw)) (fun _ _ hw => hw.1)
    fun h₁ x h' hw hsem => ⟨aside_sem o ho h₁ h' x (hpre h₁ hw) hsem, h h₁ x h' hw hsem⟩

/-- What is unpacked where nothing is, is what was in the archive. -/
theorem over_empty (t : Tree) : Tree.over t Tree.empty = t :=
  funext fun _ => Option.or_none

theorem put_self (h : Host) (name : Bytes) (t : Option Tree) : (h.put name t).releases name = t :=
  if_pos rfl

theorem put_other (h : Host) (name other : Bytes) (t : Option Tree) (hne : other ≠ name) :
    (h.put name t).releases other = h.releases other := if_neg hne

/-- And in the directory a release is unpacked in there is this. -/
def Holds (out : Outside) (h₀ : Host) (tag : Bytes) (t : Option Tree) (h : Host) : Prop :=
  Aside out h₀ tag h ∧ h.releases (partialOf tag) = t

theorem holds_put (h : Host) (t : Option Tree) (ha : Aside out h₀ tag h) :
    Holds out h₀ tag t (h.put (partialOf tag) t) :=
  ⟨aside_put h _ t (Or.inr rfl) ha, put_self h _ t⟩

/-- `rm -rf "$dest.partial"`. -/
theorem clear_withstands :
    Withstands (sem out) half (Aside out h₀ tag) (Aside out h₀ tag)
      (cmd (.removeTree (partialOf tag)))
      (fun ok h => Aside out h₀ tag h ∧ (ok = true → Holds out h₀ tag none h)) := by
  refine withstands_work (.removeTree (partialOf tag)) (Or.inr rfl) _
    (fun ok h => ok = true → Holds out h₀ tag none h) (fun _ ha => ha) ?_
  rintro h ok h' ha hsem rfl
  rw [show h' = _ from hsem]
  exact holds_put h none ha

/-- `mkdir -p "$dest.partial"`, where there is nothing. -/
theorem makeDir_withstands :
    Withstands (sem out) half (Aside out h₀ tag) (Holds out h₀ tag none)
      (cmd (.makeDir (partialOf tag)))
      (fun ok h => Aside out h₀ tag h ∧ (ok = true → Holds out h₀ tag (some Tree.empty) h)) := by
  refine withstands_work (.makeDir (partialOf tag)) (Or.inr rfl) _
    (fun ok h => ok = true → Holds out h₀ tag (some Tree.empty) h) (fun _ hw => hw.1) ?_
  rintro h ok h' ⟨ha, hnone⟩ hsem rfl
  rw [show h' = _ from hsem, hnone]
  exact holds_put h _ ha

/-- `tar`, where there is nothing yet. -/
theorem untar_withstands (archive : Bytes) :
    Withstands (sem out) half (Aside out h₀ tag) (Holds out h₀ tag (some Tree.empty))
      (cmd (.untar archive (partialOf tag)))
      (fun ok h => Aside out h₀ tag h ∧
        (ok = true → Holds out h₀ tag (some (out.untar archive)) h)) := by
  refine withstands_work (.untar archive (partialOf tag)) (Or.inr rfl) _
    (fun ok h => ok = true → Holds out h₀ tag (some (out.untar archive)) h) (fun _ hw => hw.1) ?_
  rintro h ok h' ⟨ha, hempty⟩ hsem rfl
  rcases hsem with ⟨old, hold, rfl⟩
  rw [hempty] at hold
  cases hold
  rw [over_empty]
  exact holds_put h _ ha

/-- `bop version`. -/
theorem version_withstands (t : Tree) :
    Withstands (sem out) half (Aside out h₀ tag) (Holds out h₀ tag (some t))
      (cmd (.version (partialOf tag)))
      (fun ok h => Aside out h₀ tag h ∧
        (ok = true → Holds out h₀ tag (some t) h ∧ out.runs t)) := by
  refine withstands_work (.version (partialOf tag)) trivial _
    (fun ok h => ok = true → Holds out h₀ tag (some t) h ∧ out.runs t) (fun _ hw => hw.1) ?_
  rintro h ok h' hholds ⟨rfl, hran⟩ rfl
  rcases hran rfl with ⟨t', ht', hruns⟩
  rw [hholds.2] at ht'
  cases ht'
  exact ⟨hholds, hruns⟩

/-- `rm -rf "$dest"`. -/
theorem makeRoom_withstands (htaken : Taken tag) (t : Tree) :
    Withstands (sem out) half (Aside out h₀ tag)
      (fun h => Holds out h₀ tag (some t) h ∧ out.runs t) (cmd (.removeTree tag))
      (fun ok h => Aside out h₀ tag h ∧ (ok = true →
        (Holds out h₀ tag (some t) h ∧ out.runs t) ∧ h.releases tag = none)) := by
  refine withstands_work (.removeTree tag) (Or.inl rfl) _ (fun ok h => ok = true →
    (Holds out h₀ tag (some t) h ∧ out.runs t) ∧ h.releases tag = none) (fun _ hw => hw.1.1) ?_
  rintro h ok h' ⟨⟨ha, ht⟩, hruns⟩ hsem rfl
  have hne : partialOf tag ≠ tag := (ne_partialOf tag tag htaken).symm
  rw [show h' = _ from hsem]
  exact ⟨⟨⟨aside_put h tag none (Or.inl rfl) ha, (put_other h tag _ none hne).trans ht⟩, hruns⟩,
    put_self h tag none⟩

/-- `mv "$dest.partial" "$dest"`, where there is nothing. -/
theorem rename_withstands (t : Tree) :
    Withstands (sem out) half (Aside out h₀ tag)
      (fun h => (Holds out h₀ tag (some t) h ∧ out.runs t) ∧ h.releases tag = none)
      (cmd (.rename (partialOf tag) tag))
      (fun ok h => Aside out h₀ tag h ∧
        (ok = true → h.releases tag = some t ∧ out.runs t)) := by
  refine withstands_work (.rename (partialOf tag) tag) ⟨rfl, rfl⟩ _
    (fun ok h => ok = true → h.releases tag = some t ∧ out.runs t) (fun _ hw => hw.1.1.1) ?_
  rintro h ok h' ⟨⟨⟨ha, ht⟩, hruns⟩, hnone⟩ hsem rfl
  rcases hsem with ⟨src, hsrc, t', ht', rfl⟩
  rw [ht] at hsrc
  cases hsrc
  rw [ht' hnone]
  exact ⟨put_self _ tag _, hruns⟩

/-- The new release is made, or its directory is in some state nobody looks at. -/
theorem unpack_withstands (htaken : Taken tag) (archive : Bytes) :
    Withstands (sem out) half (Aside out h₀ tag) (Aside out h₀ tag) (unpack tag archive)
      (fun r h => Aside out h₀ tag h ∧ (r = .ok () →
        h.releases tag = some (out.untar archive) ∧ out.runs (out.untar archive))) := by
  have hfail : ∀ msg h, Aside out h₀ tag h → Aside out h₀ tag h ∧
      ((.error msg : Except Bytes Unit) = .ok () →
        h.releases tag = some (out.untar archive) ∧ out.runs (out.untar archive)) :=
    fun msg h ha => ⟨ha, fun heq => by cases heq⟩
  unfold unpack
  refine withstands_then _ _ _ _ clear_withstands ?_ (hfail _)
  refine withstands_then _ _ _ _ makeDir_withstands ?_ (hfail _)
  refine withstands_then _ _ _ _ (untar_withstands archive) ?_ (hfail _)
  refine withstands_then _ _ _ _ (version_withstands _) ?_ (hfail _)
  refine withstands_then _ _ _ _ (makeRoom_withstands htaken _) ?_ (hfail _)
  exact withstands_weaken (withstands_must _ _ (rename_withstands _)) (fun _ hw => hw)
    (fun _ hw => hw) fun _ _ hw => ⟨hw.1, hw.2.1⟩

end Unpacking

/-! ### Commands without an effect -/

section Quiet

variable (out : Outside) {inv pre : Host → Prop}

/-- The commands that leave the host as it is. -/
def Quiet : UpdateOp → Prop
  | .removeTree _ | .makeDir _ | .untar _ _ | .rename _ _ | .symlink _ | .replaceLink => False
  | _ => True

theorem quiet_sem (h : Host) (o : UpdateOp) (x : UpdateAns o) (h' : Host) (ho : Quiet o)
    (hsem : sem out h o x h') : h' = h := by
  cases o with
  | latest | newest | readlink | download _ _ | version _ | listReleases => exact hsem.1
  | isActive | jobsIn _ | mktemp | restart | sleep => exact hsem
  | _ => exact ho.elim

theorem quiet_half (h : Host) (o : UpdateOp) (h' : Host) (ho : Quiet o) (hdone : half h o h') :
    h' = h := by
  cases o with
  | removeTree _ | makeDir _ | untar _ _ | rename _ _ | symlink _ | replaceLink => exact ho.elim
  | _ => exact hdone

/-- A program of such commands. -/
theorem withstands_still {α : Type} (hinv : ∀ h, pre h → inv h) (p : Script α)
    (hp : Calls Quiet p) : Withstands (sem out) half inv pre p (fun _ => pre) :=
  withstands_quiet Quiet (quiet_sem out) quiet_half hinv p hp

/-- One such command, and what is known of its answer. -/
theorem withstands_read (hinv : ∀ h, pre h → inv h) (o : UpdateOp) (ho : Quiet o)
    (fact : UpdateAns o → Prop) (hfact : ∀ h x h', pre h → sem out h o x h' → fact x) :
    Withstands (sem out) half inv pre (cmd o) (fun x h => pre h ∧ fact x) := by
  refine withstands_op o _ hinv (fun h h' hw hdone => ?_) (fun _ h hw => hinv h hw.1)
    fun h x h' hw hsem => ⟨?_, hfact h x h' hw hsem⟩
  · rw [quiet_half h o h' ho hdone]
    exact hinv h hw
  · rw [quiet_sem out h o x h' ho hsem]
    exact hw

variable {out} {S : Semantics UpdateOp UpdateAns Host} {H : Host → UpdateOp → Host → Prop}
  {α β : Type}

/-- A command whose output is used, and what is known of it. -/
theorem withstands_print (hinv : ∀ h, pre h → inv h) (p : Script (Option α)) (fact : α → Prop)
    (hp : Withstands S H inv pre p (fun x h => pre h ∧ ∀ a, x = some a → fact a)) :
    Withstands S H inv pre (mustPrint p) (fun r h => pre h ∧ ∀ a, r = .ok a → fact a) := by
  refine withstands_bind _ p _ hp fun x => ?_
  refine withstands_ret _ (fun h hmid => hinv h hmid.1) fun h hmid => ⟨hmid.1, fun a ha => ?_⟩
  cases x with
  | none => cases ha
  | some b =>
      cases ha
      exact hmid.2 _ rfl

/-- A part that leaves the host as it is, what is known of its result, and what
    comes after it. -/
theorem withstands_known {post : Except Bytes β → Host → Prop} (hinv : ∀ h, pre h → inv h)
    (p : Script (Except Bytes α)) (wrap : Bytes → Bytes) (k : α → Script (Except Bytes β))
    (fact : α → Prop)
    (hp : Withstands S H inv pre p (fun r h => pre h ∧ ∀ a, r = .ok a → fact a))
    (hk : ∀ a, fact a → Withstands S H inv pre (k a) post)
    (herr : ∀ err h, pre h → post (.error (wrap err)) h) :
    Withstands S H inv pre (check p wrap k) post := by
  refine withstands_check _ p wrap k hp (fun a => ?_) (fun _ h hmid => hinv h hmid.1)
    fun err h hmid => herr err h hmid.1
  exact withstands_weaken (withstands_fact (fact a) (hk a)) (fun h hmid => ⟨hmid.1, hmid.2 a rfl⟩)
    (fun _ hw => hw) fun _ _ hw => hw

end Quiet

/-! ### The link -/

section Linking

variable (out : Outside) (h₀ : Host) (tag : Bytes)

/-- A command, and what it has done. -/
theorem withstands_cmd {inv pre : Host → Prop} (o : UpdateOp) (post : UpdateAns o → Host → Prop)
    (hinv : ∀ h, pre h → inv h) (hhalf : ∀ h h', pre h → half h o h' → inv h')
    (h : ∀ h x h', pre h → sem out h o x h' → inv h' ∧ post x h') :
    Withstands (sem out) half inv pre (cmd o) (fun x h => inv h ∧ post x h) :=
  withstands_op o _ hinv hhalf (fun _ _ hw => hw.1) h

/-- The new release is installed, and so is the one the run found. -/
def Stocked (h : Host) : Prop :=
  WholeLink out h (releaseLink tag) ∧ ∀ link, h₀.current = some link → WholeLink out h link

/-- And the link names one of them. -/
def Linked (h : Host) : Prop :=
  Stocked out h₀ tag h ∧ (h.current = h₀.current ∨ h.current = some (releaseLink tag))

/-- It names the new one. -/
def Exchanged (h : Host) : Prop :=
  Stocked out h₀ tag h ∧ h.current = some (releaseLink tag)

/-- It is about to be exchanged. -/
def Poised (c : Option Bytes) (target : Bytes) (h : Host) : Prop :=
  (Stocked out h₀ tag h ∧ h.current = c) ∧ h.next = some target

variable {out h₀ tag}

theorem linked_of_exchanged (h : Host) (hw : Exchanged out h₀ tag h) : Linked out h₀ tag h :=
  ⟨hw.1, Or.inr hw.2⟩

theorem stocked_of_releases (h h' : Host) (heq : h'.releases = h.releases)
    (hs : Stocked out h₀ tag h) : Stocked out h₀ tag h' :=
  ⟨wholeLink_of_releases h h' _ heq hs.1,
    fun link hlink => wholeLink_of_releases h h' link heq (hs.2 link hlink)⟩

/-- The link is exchanged, or it is as it was. -/
theorem swapTo_withstands (target : Bytes) (c : Option Bytes)
    (hc : c = h₀.current ∨ c = some (releaseLink tag))
    (htarget : some target = h₀.current ∨ some target = some (releaseLink tag)) :
    Withstands (sem out) half (Linked out h₀ tag) (fun h => Stocked out h₀ tag h ∧ h.current = c)
      (swapTo target) (fun r h => Linked out h₀ tag h ∧ (r = .ok () → h.current = some target) ∧
        ∀ msg, r = .error msg → msg = []) := by
  have hlinked : ∀ h, Stocked out h₀ tag h ∧ h.current = c → Linked out h₀ tag h :=
    fun h hw => ⟨hw.1, hw.2 ▸ hc⟩
  have hmoved : ∀ h : Host, Stocked out h₀ tag h →
      Linked out h₀ tag { h with current := some target, next := none } :=
    fun h hs => ⟨stocked_of_releases h _ rfl hs, htarget⟩
  have hreplaced : ∀ h h', Poised out h₀ tag c target h →
      half h .replaceLink h' → Linked out h₀ tag h' := by
    rintro h h' ⟨hw, hnext⟩ (rfl | ⟨l, hl, rfl⟩)
    · exact hlinked _ hw
    · rw [hnext] at hl
      cases hl
      exact hmoved h hw.1
  have hnexts : ∀ (h : Host) l, Stocked out h₀ tag h ∧ h.current = c →
      Stocked out h₀ tag { h with next := l } ∧ h.current = c :=
    fun h l hw => ⟨stocked_of_releases h _ rfl hw.1, hw.2⟩
  unfold swapTo
  refine withstands_then _ _ _ (Poised out h₀ tag c target) (withstands_cmd out (.symlink target)
    (fun ok h => ok = true → Poised out h₀ tag c target h) hlinked ?_ ?_) ?_ ?_
  · rintro h h' hw ⟨l, rfl⟩
    exact hlinked _ (hnexts h l hw)
  · rintro h (_ | _) h' hw hsem
    · rcases hsem with ⟨l, rfl⟩
      exact ⟨hlinked _ (hnexts h l hw), fun heq => by cases heq⟩
    · rw [show h' = _ from hsem]
      exact ⟨hlinked _ (hnexts h _ hw), fun _ => ⟨hnexts h _ hw, rfl⟩⟩
  · refine withstands_must _ (fun h => h.current = some target)
      (withstands_cmd out .replaceLink (fun ok h => ok = true → h.current = some target)
        (fun h hw => hlinked h hw.1) hreplaced ?_)
    rintro h (_ | _) h' hw hsem
    · exact ⟨hreplaced h h' hw hsem, fun heq => by cases heq⟩
    · rcases hsem with ⟨l, hl, rfl⟩
      rw [hw.2] at hl
      cases hl
      exact ⟨hmoved h hw.1.1, fun _ => rfl⟩
  · refine fun h hw => ⟨hw, fun heq => ?_, fun msg heq => ?_⟩
    · cases heq
    · cases heq
      rfl

/-- A run that says why it failed leaves the link as it found it, if there was one. -/
def Reports {α : Type} (h₀ : Host) (r : Except Bytes α) (h : Host) : Prop :=
  ∀ msg link, r = .error msg → msg ≠ [] → h₀.current = some link → h.current = some link

theorem reports_ok {α : Type} (a : α) (h : Host) : Reports h₀ (.ok a) h :=
  fun _ _ heq => by cases heq

theorem reports_silent {α : Type} (h : Host) : Reports h₀ (.error [] : Except Bytes α) h := by
  rintro msg link heq hmsg
  cases heq
  exact absurd rfl hmsg

/-- The controller is restarted, or it is not. -/
theorem withstands_restart (pre : Host → Prop) (hpre : ∀ h, pre h → Linked out h₀ tag h) :
    Withstands (sem out) half (Linked out h₀ tag) pre (cmd .restart)
      (fun ok h => Linked out h₀ tag h ∧ (ok = true → pre h)) :=
  withstands_weaken (withstands_still out hpre (cmd .restart) ⟨trivial, fun _ => trivial⟩)
    (fun _ hw => hw) (fun _ hw => hw) fun _ h hw => ⟨hpre h hw, fun _ => hw⟩

theorem rollback_withstands (previous : Bytes) (hprevious : previous = h₀.current.getD []) :
    Withstands (sem out) half (Linked out h₀ tag)
      (Exchanged out h₀ tag) (rollback tag previous)
      (fun r h => Linked out h₀ tag h ∧ Reports h₀ r h ∧ r ≠ .ok ()) := by
  unfold rollback
  by_cases hnil : previous = []
  · -- There was no link: a link is not empty.
    rw [if_pos hnil]
    refine withstands_ret _ linked_of_exchanged fun h hw =>
      ⟨linked_of_exchanged h hw, fun msg link _ _ hlink => ?_, fun heq => by cases heq⟩
    rcases hw.1.2 link hlink with ⟨_, _, _, hrelease, _⟩
    rw [hlink, Option.getD_some, hnil] at hprevious
    rw [← hprevious] at hrelease
    exact absurd hrelease.symm (List.append_ne_nil_of_left_ne_nil (by decide) _)
  · have hfound : some previous = h₀.current := by
      cases hcurrent : h₀.current with
      | none =>
          rw [hcurrent] at hprevious
          exact absurd hprevious hnil
      | some link =>
          rw [hcurrent] at hprevious
          exact congrArg some hprevious
    rw [if_neg hnil]
    refine withstands_check _ _ _ _
      (swapTo_withstands previous _ (Or.inr rfl) (Or.inl hfound)) (fun _ => ?_)
      (fun _ h hw => hw.1) fun err h hw => ?_
    · have hrestart := withstands_restart
        (fun h => Linked out h₀ tag h ∧ h.current = some previous) fun _ hw => hw.1
      refine withstands_weaken (withstands_then _ _ _ _ hrestart
        (withstands_ret _ (fun _ hw => hw.1) fun h hw =>
          ⟨hw.1, fun msg link _ _ hlink => ?_, fun heq => by cases heq⟩)
        fun h hw => ⟨hw, reports_silent h, fun heq => by cases heq⟩)
        (fun h hw => ⟨hw.1, hw.2.1 rfl⟩) (fun _ hw => hw) fun _ _ hw => hw
      rw [hw.2, hfound, hlink]
    · rw [hw.2.2 err rfl]
      exact ⟨hw.1, reports_silent h, fun heq => by cases heq⟩

/-- The new release is running, or the link is put back, or a command failed. -/
theorem rollout_withstands (previous : Bytes) (hprevious : previous = h₀.current.getD []) :
    Withstands (sem out) half (Linked out h₀ tag)
      (fun h => Stocked out h₀ tag h ∧ h.current = h₀.current) (rollout tag previous)
      (fun r h => Linked out h₀ tag h ∧ Reports h₀ r h ∧
        (r = .ok () → Exchanged out h₀ tag h)) := by
  unfold rollout
  refine withstands_check _ _ _ _
    (swapTo_withstands (releaseLink tag) _ (Or.inl rfl) (Or.inr rfl)) (fun _ => ?_)
    (fun _ h hw => hw.1) fun err h hw => ?_
  · refine withstands_weaken (withstands_then _ _ _ _ (withstands_restart _ linked_of_exchanged)
      (withstands_bind (fun _ => Exchanged out h₀ tag) healthy _
        (withstands_still out linked_of_exchanged healthy ?_)
        fun up => ?_) fun h hw => ⟨hw, reports_silent h, fun heq => by cases heq⟩)
      (fun h hw => ⟨hw.1.1, hw.2.1 rfl⟩) (fun _ hw => hw) fun _ _ hw => hw
    · refine ⟨trivial, fun _ => ⟨trivial, fun active => ?_⟩⟩
      cases active with
      | true => exact ⟨trivial, fun _ => trivial⟩
      | false => trivial
    · cases up with
      | true => exact withstands_ret _ linked_of_exchanged fun h hw =>
          ⟨linked_of_exchanged h hw, reports_ok () h, fun _ => hw⟩
      | false =>
          exact withstands_weaken (rollback_withstands previous hprevious) (fun _ hw => hw)
            (fun _ hw => hw) fun _ _ hw => ⟨hw.1, hw.2.1, fun heq => absurd heq hw.2.2⟩
  · rw [hw.2.2 err rfl]
    exact ⟨hw.1, reports_silent h, fun heq => by cases heq⟩

/-- Removing a release that is neither of the two. -/
theorem stocked_put (h : Host) (old : Bytes) (hold : old ≠ tag)
    (hlinks : ∀ link, h₀.current = some link → basename link ≠ old)
    (hs : Stocked out h₀ tag h) (t : Option Tree) : Stocked out h₀ tag (h.put old t) := by
  refine ⟨wholeLink_put h old _ t hs.1 fun heq => hold (releaseLink_inj _ _ heq).symm,
    fun link hlink => wholeLink_put h old link t (hs.2 link hlink) ?_⟩
  rintro rfl
  rcases hs.2 _ hlink with ⟨other, _, htaken, heq, _⟩
  rw [releaseLink_inj _ _ heq] at hlink hlinks
  exact hlinks _ hlink (basename_taken other htaken)

/-- Old releases go, and neither of the two is one of them. -/
theorem pruneAll_withstands (keepPrevious : Bytes)
    (hkeep : ∀ link, h₀.current = some link → basename link = keepPrevious) (names : List Bytes) :
    Withstands (sem out) half (Exchanged out h₀ tag) (Exchanged out h₀ tag)
      (pruneAll tag keepPrevious names)
      (fun r h => Exchanged out h₀ tag h ∧ ∀ msg, r = .error msg → msg = []) := by
  induction names with
  | nil => exact withstands_ret _ (fun _ hw => hw) fun _ hw => ⟨hw, fun _ heq => by cases heq⟩
  | cons old rest ih =>
      unfold pruneAll
      split
      · exact ih
      · next hold =>
          rw [not_or] at hold
          have hput : ∀ (h : Host) t, Exchanged out h₀ tag h → Exchanged out h₀ tag (h.put old t) :=
            fun h t hw => ⟨stocked_put h old hold.1
              (fun link hlink heq => hold.2 (heq.symm.trans (hkeep link hlink))) hw.1 t, hw.2⟩
          refine withstands_then _ _ _ _ (withstands_cmd out (.removeTree old)
            (fun ok h => ok = true → Exchanged out h₀ tag h)
            (fun _ hw => hw) ?_ ?_) ih fun h hw => ⟨hw, fun msg heq => ?_⟩
          · rintro h h' hw ⟨t, rfl⟩
            exact hput h t hw
          · rintro h (_ | _) h' hw hsem
            · rcases hsem with ⟨t, rfl⟩
              exact ⟨hput h t hw, fun _ => hput h t hw⟩
            · rw [show h' = _ from hsem]
              exact ⟨hput h _ hw, fun _ => hput h _ hw⟩
          · cases heq
            rfl

theorem prune_withstands (keep : Nat) (keepPrevious : Bytes)
    (hkeep : ∀ link, h₀.current = some link → basename link = keepPrevious) :
    Withstands (sem out) half (Exchanged out h₀ tag) (Exchanged out h₀ tag)
      (prune keep tag keepPrevious)
      (fun r h => Exchanged out h₀ tag h ∧ ∀ msg, r = .error msg → msg = []) := by
  have hlist : Withstands (sem out) half (Exchanged out h₀ tag) (Exchanged out h₀ tag)
      (mustPrint (cmd .listReleases))
      (fun r h => Exchanged out h₀ tag h ∧ ∀ msg, r = .error msg → msg = []) := by
    refine withstands_bind (fun _ => Exchanged out h₀ tag) _ _
      (withstands_still out (fun _ hw => hw) (cmd .listReleases) ⟨trivial, fun _ => trivial⟩)
      fun names => ?_
    refine withstands_ret _ (fun _ hw => hw) fun h hw => ⟨hw, fun msg heq => ?_⟩
    cases names with
    | none =>
        cases heq
        rfl
    | some _ => cases heq
  unfold prune
  refine withstands_check _ _ _ _ hlist (fun names => ?_) (fun _ h hw => hw.1)
    fun err h hw => ⟨hw.1, fun msg heq => ?_⟩
  · refine withstands_weaken (?_ : Withstands _ _ _ (Exchanged out h₀ tag) _ _) (fun h hw => hw.1)
      (fun _ hw => hw) fun _ _ hw => hw
    dsimp only
    split
    · refine withstands_ret _ (fun _ hw => hw) fun h hw => ⟨hw, fun msg heq => ?_⟩
      cases heq
      rfl
    · exact pruneAll_withstands keepPrevious hkeep _
  · cases heq
    exact hw.2 err rfl

end Linking

end Deploy

end Bop
