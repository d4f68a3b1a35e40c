import Bop.Deploy.Release
import Bop.Effect.Crash

/-!
# The Updater

`bop-update`, which a timer runs on a host: it asks which release is the newest
on the host's channel, and if that is not the current one it downloads it,
checks it, unpacks it beside the others, points the link `current` at it and
restarts the controller. If the controller does not come up, the link is put
back.

Under `set -e` a command that fails ends the script, mostly without a word,
which is the empty message here. What the script prints with `die` is its error.

The host is what the script changes: the directories below `releases`, the link
and the link that is about to replace it. `rm`, `mkdir` and `tar` may fail or be
stopped half way, and then anything may be in the directory they worked on.
`mv` renames, which is done or not done.

## Main definitions

* `UpdateOp`, `UpdateAns`: The commands of the script.
* `Config`, `Ended`: What it is configured with, and how it ends well.
* `chooseTag`, `controllerBusy`, `fetch`, `unpack`, `swapTo`, `healthy`,
  `rollout`, `prune`: Its parts.
* `Printed`, `added`: What the controller is heard to say, and the sum of it.
* `update`: The script.
* `Host`, `half`, `sem`: The host, and what a command does to it.
-/

namespace Bop

namespace Deploy

open Prog

/-! ### The script -/

/-- A release in GitHub's answer, as far as the script looks. -/
structure Published where
  tagName : Option Bytes
  draft : Bool

/-- The commands of the script. -/
inductive UpdateOp
  /-- `gh_api releases/latest`. -/
  | latest
  /-- `gh_api 'releases?per_page=20'`. -/
  | newest
  /-- `[[ -L "$ROOT/current" ]]` and `readlink "$ROOT/current"`. -/
  | readlink
  /-- `systemctl --user is-active --quiet "$UNIT"`. -/
  | isActive
  /-- `jobs_in`: how many jobs the controller lists with a status. -/
  | jobsIn (status : Bytes)
  /-- `mktemp -d`. -/
  | mktemp
  /-- `curl` for a file of a release. -/
  | download (tag file : Bytes)
  /-- `rm -rf "$ROOT/releases/…"`. -/
  | removeTree (name : Bytes)
  /-- `mkdir -p "$ROOT/releases/…"`. -/
  | makeDir (name : Bytes)
  /-- `tar -xzf … -C "$ROOT/releases/…"`. -/
  | untar (archive name : Bytes)
  /-- `"$ROOT/releases/…/bop" version`. -/
  | version (name : Bytes)
  /-- `mv` between two names below `releases`. -/
  | rename (src dst : Bytes)
  /-- `ln -sfn … "$ROOT/current.new"`. -/
  | symlink (target : Bytes)
  /-- `mv -T "$ROOT/current.new" "$ROOT/current"`. -/
  | replaceLink
  /-- `systemctl --user restart "$UNIT"`. -/
  | restart
  /-- `sleep 15`. -/
  | sleep
  /-- `ls -1t "$ROOT/releases"`. -/
  | listReleases

/-- What `jobs_in` prints, a number on each line, and whether it succeeded: `curl`
    may fail when the list is there already, and an answer may be empty. -/
structure Printed where
  counts : List Nat
  ok : Bool

/-- What they answer: whether they succeeded, and what they print if they do. -/
abbrev UpdateAns : UpdateOp → Type
  | .latest => Option Published
  | .newest => Option (List Published)
  | .readlink => Option Bytes
  | .jobsIn _ => Printed
  | .download _ _ => Option Bytes
  | .listReleases => Option (List Bytes)
  | .sleep => Unit
  | _ => Bool

/-- A part of the script. -/
abbrev Script (α : Type) := Prog UpdateOp UpdateAns α

/-- A command on its own. -/
abbrev cmd (o : UpdateOp) : Script (UpdateAns o) := op o

/-- A command under `set -e`. -/
def must (p : Script Bool) : Script (Except Bytes Unit) := do
  let ok ← p
  return if ok then .ok () else .error []

/-- A command under `set -e` whose output is used. -/
def mustPrint {α : Type} (p : Script (Option α)) : Script (Except Bytes α) := do
  let out ← p
  return out.elim (.error []) .ok

/-- `jobs_in`. -/
def jobsIn (status : Bytes) : Script Printed := cmd (.jobsIn status)

/-- `curl`. -/
def download (tag file : Bytes) : Script (Option Bytes) := cmd (.download tag file)

/-- `BOP_CHANNEL` and `BOP_KEEP_RELEASES`. -/
structure Config where
  channel : Bytes
  keep : Nat

/-- How the script ends with exit status zero. -/
inductive Ended
  | upToDate
  | busy
  | deployed (tag : Bytes)

/-- What `jq` prints for the name of a tag. -/
def jqTag (name : Option Bytes) : Bytes := name.getD "null"

/-- `case "$CHANNEL" in … esac`. -/
def channelTag (channel : Bytes) : Script (Except Bytes Bytes) :=
  if channel = "stable" then
    check (mustPrint (cmd .latest)) id fun release => .ret (.ok (jqTag release.tagName))
  else if channel = "prerelease" then
    check (mustPrint (cmd .newest)) id fun releases =>
      .ret (.ok (jqTag ((releases.find? fun r => !r.draft).bind Published.tagName)))
  else
    .ret (.error ("unknown BOP_CHANNEL '" ++ channel ++ "' (want stable or prerelease)"))

/-- The tag of the newest release, if there is one that may be taken. -/
def chooseTag (channel : Bytes) : Script (Except Bytes Bytes) :=
  check (channelTag channel) id fun tag => .ret (
    if tag = [] ∨ tag = "null" then .error ("no release found on channel '" ++ channel ++ "'")
    else if tagName tag then .ok tag
    else .error ("refusing unexpected tag name '" ++ tag ++ "'"))

/-- `$(jobs_in … || echo 1)`: a list that cannot be had counts one. -/
def Printed.orOne (p : Printed) : List Nat := if p.ok then p.counts else p.counts ++ [1]

/-- `$(( … + … ))`, of what was printed: a number on either side, or none in front
    of the sign. Anything else is no expression. -/
def added : List Nat → List Nat → Option Nat
  | [], [n] => some n
  | [m], [n] => some (m + n)
  | _, _ => none

/-- Whether the controller is running and at work. If it does not say, it is. -/
def controllerBusy : Script Bool := do
  let active : Bool ← cmd .isActive
  if active then
    let inProgress ← jobsIn "in_progress"
    let queued ← jobsIn "queued"
    match added inProgress.orOne queued.orOne with
    | some busy => return decide (0 < busy)
    -- The shell gives up the whole `if` over it and goes on behind it.
    | none => return false
  else
    return false

/-- It asks the controller, and nothing else. -/
theorem calls_controllerBusy (P : UpdateOp → Prop) (hactive : P .isActive)
    (hjobs : ∀ status, P (.jobsIn status)) : Calls P controllerBusy := by
  refine ⟨hactive, fun active => ?_⟩
  cases active with
  | false => trivial
  | true =>
      refine ⟨hjobs _, fun inProgress => ⟨hjobs _, fun queued => ?_⟩⟩
      change Calls P (match added (Printed.orOne inProgress) (Printed.orOne queued) with
        | some busy => .ret (decide (0 < busy))
        | none => .ret false)
      split <;> trivial

section Download

variable (sha256 : Bytes → Bytes)

/-- The archive of a release, checked. -/
def fetch (tag : Bytes) : Script (Except Bytes Bytes) :=
  check (must (cmd .mktemp)) id fun _ =>
  check (mustPrint (download tag (assetOf tag))) id fun archive =>
  check (mustPrint (download tag "checksums.txt")) id fun sums => .ret (
    if verified sha256 (assetOf tag) archive sums then .ok archive
    else .error ("checksum mismatch for " ++ assetOf tag))

end Download

/-- `$dest.partial`. -/
def partialOf (tag : Bytes) : Bytes := tag ++ ".partial"

/-- From `rm -rf "$dest.partial"` to `mv "$dest.partial" "$dest"`. -/
def unpack (tag archive : Bytes) : Script (Except Bytes Unit) :=
  check (must (cmd (.removeTree (partialOf tag)))) id fun _ =>
  check (must (cmd (.makeDir (partialOf tag)))) id fun _ =>
  check (must (cmd (.untar archive (partialOf tag)))) id fun _ =>
  check (must (cmd (.version (partialOf tag))))
    (fun _ => tag ++ ": bop binary does not run") fun _ =>
  check (must (cmd (.removeTree tag))) id fun _ =>
  must (cmd (.rename (partialOf tag) tag))

/-- `swap_to`. -/
def swapTo (target : Bytes) : Script (Except Bytes Unit) :=
  check (must (cmd (.symlink target))) id fun _ => must (cmd .replaceLink)

/-- `healthy`. -/
def healthy : Script Bool := do
  let _ ← cmd .sleep
  let active : Bool ← cmd .isActive
  if active then
    let completed ← jobsIn "completed"
    return completed.ok
  else
    return false

/-- The link is put back, if there was one, and the script dies. -/
def rollback (tag previous : Bytes) : Script (Except Bytes Unit) :=
  let failed : Except Bytes Unit := .error ("deploy of " ++ tag ++ " failed")
  if previous = [] then .ret failed
  else
    check (swapTo previous) id fun _ =>
    check (must (cmd .restart)) id fun _ => .ret failed

/-- From `swap_to "releases/$tag"` to `log "deployed $tag"`. -/
def rollout (tag previous : Bytes) : Script (Except Bytes Unit) :=
  check (swapTo (releaseLink tag)) id fun _ =>
  check (must (cmd .restart)) id fun _ => do
    let up ← healthy
    if up then return .ok () else rollback tag previous

/-- The body of the last loop. -/
def pruneAll (tag keepPrevious : Bytes) : List Bytes → Script (Except Bytes Unit)
  | [] => .ret (.ok ())
  | old :: rest =>
      if old = tag ∨ old = keepPrevious then pruneAll tag keepPrevious rest
      else check (must (cmd (.removeTree old))) id fun _ => pruneAll tag keepPrevious rest

/-- The last pipeline: `grep` fails if it is left with nothing. -/
def prune (keep : Nat) (tag keepPrevious : Bytes) : Script (Except Bytes Unit) :=
  check (mustPrint (cmd .listReleases)) id fun names =>
    let whole := names.filter fun n => !hasSuffix n ".partial"
    if whole = [] then .ret (.error []) else pruneAll tag keepPrevious (whole.drop keep)

/-- `bop-update`. -/
def update (sha256 : Bytes → Bytes) (cfg : Config) : Script (Except Bytes Ended) :=
  check (chooseTag cfg.channel) id fun tag => do
    let link : Option Bytes ← cmd .readlink
    if (link.map basename).getD [] = tag then return .ok .upToDate
    else
      let busy ← controllerBusy
      if busy then return .ok .busy
      else
        check (fetch sha256 tag) id fun archive =>
        check (unpack tag archive) id fun _ => do
          let link : Option Bytes ← cmd .readlink
          let previous := link.getD []
          let keepPrevious := basename (if previous = [] then "none" else previous)
          check (rollout tag previous) id fun _ =>
          check (prune cfg.keep tag keepPrevious) id fun _ =>
          return .ok (.deployed tag)

/-! ### The host -/

/-- The files of a directory. -/
abbrev Tree := Bytes → Option Bytes

/-- A directory with nothing in it. -/
def Tree.empty : Tree := fun _ => none

/-- What is unpacked over a directory. -/
def Tree.over (t old : Tree) : Tree := fun path => (t path).or (old path)

/-- What the script changes: the directories below `releases`, the link `current`
    and the link `current.new`. -/
structure Host where
  releases : Bytes → Option Tree
  current : Option Bytes
  next : Option Bytes

/-- A directory below `releases` is made, changed or removed. -/
def Host.put (h : Host) (name : Bytes) (t : Option Tree) : Host :=
  { h with releases := fun n => if n = name then t else h.releases n }

/-- What is not on the host: the digests of `sha256sum`, what `tar` finds in an
    archive, which directories hold a `bop` that runs, which tags GitHub may
    name and what it may serve for a file of one. -/
structure Outside where
  sha256 : Bytes → Bytes
  untar : Bytes → Tree
  runs : Tree → Prop
  offered : Bytes → Prop
  served : Bytes → Bytes → Bytes → Prop

/-- What a command may have done when it failed or was stopped. -/
def half (h : Host) : UpdateOp → Host → Prop
  | .removeTree name, h' | .makeDir name, h' | .untar _ name, h' => ∃ t, h' = h.put name t
  | .rename src dst, h' =>
      h' = h ∨ ∃ t, h.releases src = some t ∧ h.releases dst = none ∧
        h' = (h.put src none).put dst (some t)
  | .symlink _, h' => ∃ l, h' = { h with next := l }
  | .replaceLink, h' =>
      h' = h ∨ ∃ l, h.next = some l ∧ h' = { h with current := some l, next := none }
  | _, h' => h' = h

/-- What a command does and answers. -/
def sem (out : Outside) : Semantics UpdateOp UpdateAns Host
  | h, .latest, x, h' => h' = h ∧ ∀ r ∈ x, ∀ tag ∈ r.tagName, out.offered tag
  | h, .newest, x, h' => h' = h ∧ ∀ rs ∈ x, ∀ r ∈ rs, ∀ tag ∈ r.tagName, out.offered tag
  | h, .readlink, x, h' => h' = h ∧ x = h.current
  | h, .download tag file, x, h' => h' = h ∧ ∀ data ∈ x, out.served tag file data
  | h, .removeTree name, ok, h' =>
      if ok then h' = h.put name none else half h (.removeTree name) h'
  | h, .makeDir name, ok, h' =>
      if ok then h' = h.put name (some ((h.releases name).getD Tree.empty))
      else half h (.makeDir name) h'
  | h, .untar archive name, ok, h' =>
      if ok then ∃ old, h.releases name = some old ∧
        h' = h.put name (some (Tree.over (out.untar archive) old))
      else half h (.untar archive name) h'
  | h, .version name, ok, h' =>
      h' = h ∧ (ok = true → ∃ t, h.releases name = some t ∧ out.runs t)
  | h, .rename src dst, ok, h' =>
      -- A directory that is there is moved into.
      if ok then ∃ t, h.releases src = some t ∧
        ∃ t', (h.releases dst = none → t' = t) ∧ h' = (h.put src none).put dst (some t')
      else half h (.rename src dst) h'
  | h, .symlink target, ok, h' =>
      if ok then h' = { h with next := some target } else half h (.symlink target) h'
  | h, .replaceLink, ok, h' =>
      if ok then ∃ l, h.next = some l ∧ h' = { h with current := some l, next := none }
      else half h .replaceLink h'
  | h, .listReleases, x, h' =>
      h' = h ∧ ∀ names ∈ x, ∀ n, n ∈ names ↔ h.releases n ≠ none
  | h, _, _, h' => h' = h

end Deploy

end Bop
