import Bop.Data.Distinct
import Bop.Text.Bytes

/-!
# Host Key Algorithms

A server with several host keys may negotiate one of a type that known_hosts
does not record, and the connection is then refused although the server is
legitimate. So only the algorithms of recorded keys are negotiated. There is no
way to look a host up in known_hosts: its callback is asked about a placeholder
key, and the recorded keys are read out of the error it reports.

The `ssh` and `knownhosts` packages, the name resolver and the file system are
ports. An error wraps others, and `errors.As` looks for one of a type among all
of them.

## Main definitions

* `GoError`, `keyErr?`: Errors, and what `errors.As` finds in one.
* `KnownKey.algorithms`: The algorithms a recorded key can be verified under.
* `knownHostKeyAlgorithms`: The algorithms to negotiate with a host.
* `SSHExecutor.clientConfig`: What a connection is configured with.
* `Negotiates`: The algorithms are those of the recorded keys, in their order.

## Theorems

* `negotiates_algorithms`: The loop over the recorded keys.
* `knownHostKeyAlgorithms_spec`: What is negotiated with a host, and with which
  hosts the package's defaults are.
* `clientConfig_ok`: A connection is verified by known_hosts and nothing else.
-/

namespace Bop

namespace Sshexec

/-- `ssh.KeyAlgoRSA`. -/
def keyAlgoRSA : Bytes := "ssh-rsa"

/-- `ssh.KeyAlgoRSASHA256`. -/
def keyAlgoRSASHA256 : Bytes := "rsa-sha2-256"

/-- `ssh.KeyAlgoRSASHA512`. -/
def keyAlgoRSASHA512 : Bytes := "rsa-sha2-512"

/-- An `ssh.PublicKey`, as far as its type. -/
structure PublicKey where
  type : Bytes
  deriving DecidableEq

/-- A `knownhosts.KnownKey`. -/
structure KnownKey where
  key : PublicKey
  deriving DecidableEq

/-- An error: a `*knownhosts.KeyError`, or any other with the errors it wraps. -/
inductive GoError
  | keyError (want : List KnownKey)
  | other (wrapped : List GoError)

mutual

/-- `errors.As` with a `*knownhosts.KeyError`: the keys of the first one found,
    depth first. -/
def keyErr? : GoError → Option (List KnownKey)
  | .keyError want => some want
  | .other wrapped => firstKeyErr? wrapped

/-- The same among several errors. -/
def firstKeyErr? : List GoError → Option (List KnownKey)
  | [] => none
  | err :: rest => match keyErr? err with
    | some want => some want
    | none => firstKeyErr? rest

end

/-- An `ssh.HostKeyCallback`. It answers nil or an error. -/
abbrev HostKeyCallback (Addr : Type) := Bytes → Addr → PublicKey → Option GoError

/-- What the program uses of other packages. `Addr` is `*net.TCPAddr` and
    `Signer` is `ssh.Signer`. -/
structure Packages (Addr Signer : Type) where
  /-- `os.ReadFile`. -/
  readFile : Bytes → Except Bytes Bytes
  /-- `ssh.ParsePrivateKey`. -/
  parsePrivateKey : Bytes → Except Bytes Signer
  /-- `knownhosts.New`. -/
  newKnownHosts : Bytes → Except Bytes (HostKeyCallback Addr)
  /-- `ssh.NewPublicKey` of the ed25519 key made from a seed of zeros. -/
  newPublicKey : Except Bytes PublicKey
  /-- `net.ResolveTCPAddr`. -/
  resolveTCPAddr : Bytes → Except Bytes Addr

variable {Addr Signer : Type}

/-- What the loop does with one recorded key. -/
def addKey (algos : Distinct Bytes) (k : KnownKey) : Distinct Bytes :=
  let t := k.key.type
  if t = keyAlgoRSA then
    -- Modern servers verify such a key under the SHA-2 signature algorithms.
    ((algos.add keyAlgoRSASHA512).add keyAlgoRSASHA256).add t
  else algos.add t

/-- `knownHostKeyAlgorithms`. A slice to which nothing was appended is nil. -/
def knownHostKeyAlgorithms (pkgs : Packages Addr Signer) (cb : HostKeyCallback Addr)
    (addr : Bytes) : Option (List Bytes) :=
  match pkgs.newPublicKey with
  | .error _ => none
  | .ok placeholder => match pkgs.resolveTCPAddr addr with
    | .error _ => none
    | .ok remote => match (cb addr remote placeholder).bind keyErr? with
      | none => none
      | some want =>
          let algos := (want.foldl addKey Distinct.empty).items
          if algos = [] then none else some algos

/-- An `SSHExecutor`. -/
structure SSHExecutor where
  addr : Bytes
  user : Bytes
  keyPath : Bytes
  knownHostsFile : Bytes

/-- What a connection is configured with. -/
structure ClientConfig (Addr Signer : Type) where
  user : Bytes
  auth : List Signer
  hostKeyCallback : HostKeyCallback Addr
  /-- Nothing stands for the defaults of the package. -/
  hostKeyAlgorithms : Option (List Bytes)
  /-- In nanoseconds. -/
  timeout : Int

/-- The configuration `SSHExecutor.Run` dials with. -/
def SSHExecutor.clientConfig (e : SSHExecutor) (pkgs : Packages Addr Signer) :
    Except Bytes (ClientConfig Addr Signer) :=
  match pkgs.readFile e.keyPath with
  | .error err => .error ("read ssh key " ++ e.keyPath ++ ": " ++ err)
  | .ok key => match pkgs.parsePrivateKey key with
    | .error err => .error ("parse ssh key " ++ e.keyPath ++ ": " ++ err)
    | .ok signer => match pkgs.newKnownHosts e.knownHostsFile with
      | .error err => .error ("load known_hosts file " ++ e.knownHostsFile ++ ": " ++ err ++
          " (add this host's key first, e.g. via ssh-keyscan)")
      | .ok hostKeyCallback => .ok {
          user := e.user
          auth := [signer]
          hostKeyCallback := hostKeyCallback
          hostKeyAlgorithms := knownHostKeyAlgorithms pkgs hostKeyCallback e.addr
          timeout := 10 * 1000000000 }

/-! ### The recorded keys -/

/-- The algorithms a recorded key can be verified under, the preferred first. -/
def KnownKey.algorithms (k : KnownKey) : List Bytes :=
  if k.key.type = keyAlgoRSA then [keyAlgoRSASHA512, keyAlgoRSASHA256, keyAlgoRSA]
  else [k.key.type]

/-- The algorithms are those of the recorded keys, each once and in the order
    of the keys, and the SHA-2 variants come before `ssh-rsa`. -/
structure Negotiates (want : List KnownKey) (algos : List Bytes) : Prop where
  nodup : algos.Nodup
  mem_iff : ∀ a, a ∈ algos ↔ ∃ k ∈ want, a ∈ k.algorithms
  ordered : algos.Pairwise (Earlier (want.map KnownKey.algorithms))
  sha2First : keyAlgoRSA ∈ algos →
    ∀ a ∈ [keyAlgoRSASHA512, keyAlgoRSASHA256], [a, keyAlgoRSA].Sublist algos

/-- One turn of the loop takes the algorithms of the key. -/
theorem addKey_eq (algos : Distinct Bytes) (k : KnownKey) :
    addKey algos k = algos.addAll k.algorithms := by
  unfold addKey KnownKey.algorithms
  by_cases h : k.key.type = keyAlgoRSA
  · simp only [h, if_true]
    rfl
  · simp only [h, if_false]
    rfl

/-- The loop takes the algorithms of all keys. -/
theorem foldl_addKey (want : List KnownKey) (algos : Distinct Bytes) :
    want.foldl addKey algos = algos.addAll (want.map KnownKey.algorithms).flatten := by
  induction want generalizing algos with
  | nil => rfl
  | cons k want ih =>
      rw [List.foldl_cons, ih, addKey_eq, List.map_cons, List.flatten_cons, Distinct.addAll,
        Distinct.addAll, Distinct.addAll, List.foldl_append]

theorem mem_flatten_algorithms (want : List KnownKey) (a : Bytes) :
    a ∈ (want.map KnownKey.algorithms).flatten ↔ ∃ k ∈ want, a ∈ k.algorithms := by
  simp only [List.mem_flatten, List.mem_map, exists_exists_and_eq_and]

/-- A key that can be verified under `ssh-rsa` can be under the SHA-2 variants,
    which are preferred. -/
theorem comesBefore_algorithms (k : KnownKey) (a : Bytes)
    (ha : a ∈ [keyAlgoRSASHA512, keyAlgoRSASHA256]) (hk : keyAlgoRSA ∈ k.algorithms) :
    ComesBefore k.algorithms a keyAlgoRSA := by
  unfold KnownKey.algorithms at hk ⊢
  by_cases h : k.key.type = keyAlgoRSA
  · rw [if_pos h]
    revert a
    decide
  · rw [if_neg h] at hk
    exact absurd (List.mem_singleton.mp hk).symm h

/-- What the loop over the recorded keys comes to. -/
theorem negotiates_algorithms (want : List KnownKey) :
    Negotiates want (want.foldl addKey Distinct.empty).items := by
  rw [foldl_addKey]
  change Negotiates want (Distinct.ofList (want.map KnownKey.algorithms).flatten).items
  refine ⟨Distinct.nodup _, fun a => ?_, Distinct.pairwise_flatten _, fun hrsa a ha => ?_⟩
  · rw [Distinct.mem_ofList, mem_flatten_algorithms]
  · refine Distinct.sublist_flatten _ _ _ ((Distinct.mem_ofList _ _).mp hrsa) fun g hg hmem => ?_
    rcases List.mem_map.mp hg with ⟨k, _, rfl⟩
    exact comesBefore_algorithms k a ha hmem

/-- There is nothing to negotiate exactly if no key is recorded. -/
theorem negotiates_nil_iff (want : List KnownKey) (algos : List Bytes)
    (h : Negotiates want algos) : algos = [] ↔ want = [] := by
  constructor
  · intro hnil
    cases want with
    | nil => rfl
    | cons k want =>
        -- The key's own type is among its algorithms.
        have hk : k.key.type ∈ k.algorithms := by
          unfold KnownKey.algorithms
          by_cases hrsa : k.key.type = keyAlgoRSA
          · simp only [hrsa, if_true, List.mem_cons, true_or, or_true]
          · simp only [hrsa, if_false, List.mem_singleton]
        have hmem := (h.mem_iff k.key.type).mpr ⟨k, List.mem_cons_self, hk⟩
        rw [hnil] at hmem
        exact absurd hmem List.not_mem_nil
  · rintro rfl
    refine List.eq_nil_iff_forall_not_mem.mpr fun a ha => ?_
    rcases (h.mem_iff a).mp ha with ⟨k, hk, _⟩
    exact absurd hk List.not_mem_nil

/-! ### Negotiating with a host -/

/-- The keys that known_hosts records for a host: those that its callback
    reports as wanted. -/
def recorded (cb : HostKeyCallback Addr) (addr : Bytes) (remote : Addr)
    (placeholder : PublicKey) : Option (List KnownKey) :=
  (cb addr remote placeholder).bind keyErr?

section Host

variable (pkgs : Packages Addr Signer) (cb : HostKeyCallback Addr) (addr : Bytes)

/-- With a host whose address resolves the algorithms of the recorded keys are
    negotiated, if there are any. -/
theorem knownHostKeyAlgorithms_of_recorded (remote : Addr) (placeholder : PublicKey)
    (want : List KnownKey) (hkey : pkgs.newPublicKey = .ok placeholder)
    (haddr : pkgs.resolveTCPAddr addr = .ok remote)
    (hwant : recorded cb addr remote placeholder = some want) :
    Negotiates want ((knownHostKeyAlgorithms pkgs cb addr).getD []) ∧
      (knownHostKeyAlgorithms pkgs cb addr = none ↔ want = []) := by
  have hloop := negotiates_algorithms want
  have hnil := negotiates_nil_iff want _ hloop
  rw [recorded] at hwant
  simp only [knownHostKeyAlgorithms, hkey, haddr, hwant]
  by_cases h : (want.foldl addKey Distinct.empty).items = []
  · rw [if_pos h]
    rw [h] at hloop
    exact ⟨hloop, iff_of_true rfl (hnil.mp h)⟩
  · rw [if_neg h]
    exact ⟨hloop, iff_of_false (fun heq => nomatch heq) fun hw => h (hnil.mpr hw)⟩

/-- Where a key of the kind asked about can be made, the algorithms negotiated
    with a host are those of its recorded keys, each once, in the order of the
    keys and with the SHA-2 variants before `ssh-rsa`. The package's defaults
    are left to apply exactly if the address does not resolve, no key is
    recorded or the callback reports no `KeyError`. -/
theorem knownHostKeyAlgorithms_spec (placeholder : PublicKey)
    (hkey : pkgs.newPublicKey = .ok placeholder) :
    (∀ remote want, pkgs.resolveTCPAddr addr = .ok remote →
      recorded cb addr remote placeholder = some want →
      Negotiates want ((knownHostKeyAlgorithms pkgs cb addr).getD [])) ∧
    (knownHostKeyAlgorithms pkgs cb addr = none ↔
      (∃ err, pkgs.resolveTCPAddr addr = .error err) ∨
      ∃ remote, pkgs.resolveTCPAddr addr = .ok remote ∧
        (recorded cb addr remote placeholder = some [] ∨
          recorded cb addr remote placeholder = none)) := by
  constructor
  · intro remote want haddr hwant
    exact (knownHostKeyAlgorithms_of_recorded pkgs cb addr remote placeholder want hkey haddr
      hwant).1
  · cases haddr : pkgs.resolveTCPAddr addr with
    | error err =>
        have hnone : knownHostKeyAlgorithms pkgs cb addr = none := by
          simp only [knownHostKeyAlgorithms, hkey, haddr]
        exact iff_of_true hnone (Or.inl ⟨err, rfl⟩)
    | ok remote =>
        -- The address resolves, so it depends on what the callback reports.
        have hresolved : ((∃ err, Except.ok remote = (Except.error err : Except Bytes Addr)) ∨
            ∃ r, Except.ok remote = (Except.ok r : Except Bytes Addr) ∧
              (recorded cb addr r placeholder = some [] ∨
                recorded cb addr r placeholder = none)) ↔
            (recorded cb addr remote placeholder = some [] ∨
              recorded cb addr remote placeholder = none) := by
          simp only [reduceCtorEq, exists_false, false_or, Except.ok.injEq, exists_eq_left']
        rw [hresolved]
        cases hwant : recorded cb addr remote placeholder with
        | none =>
            have hnone : knownHostKeyAlgorithms pkgs cb addr = none := by
              rw [recorded] at hwant
              simp only [knownHostKeyAlgorithms, hkey, haddr, hwant]
            exact iff_of_true hnone (Or.inr rfl)
        | some want =>
            rw [(knownHostKeyAlgorithms_of_recorded pkgs cb addr remote placeholder want hkey
              haddr hwant).2]
            simp only [Option.some.injEq, reduceCtorEq, or_false]

end Host

/-- A connection is verified by known_hosts and by nothing else, and negotiates
    the algorithms known_hosts has for its host. -/
theorem clientConfig_ok (pkgs : Packages Addr Signer) (e : SSHExecutor)
    (config : ClientConfig Addr Signer) (h : e.clientConfig pkgs = .ok config) :
    pkgs.newKnownHosts e.knownHostsFile = .ok config.hostKeyCallback ∧
      config.hostKeyAlgorithms = knownHostKeyAlgorithms pkgs config.hostKeyCallback e.addr := by
  unfold SSHExecutor.clientConfig at h
  cases hread : pkgs.readFile e.keyPath with
  | error err => simp only [hread, reduceCtorEq] at h
  | ok key =>
      cases hparse : pkgs.parsePrivateKey key with
      | error err => simp only [hread, hparse, reduceCtorEq] at h
      | ok signer =>
          cases hnew : pkgs.newKnownHosts e.knownHostsFile with
          | error err => simp only [hread, hparse, hnew, reduceCtorEq] at h
          | ok cb =>
              simp only [hread, hparse, hnew, Except.ok.injEq] at h
              subst h
              exact ⟨rfl, rfl⟩

/-! ### One host -/

/-- A host with an RSA key and an ed25519 key. -/
def twoKeys : List KnownKey := [⟨⟨keyAlgoRSA⟩⟩, ⟨⟨"ssh-ed25519"⟩⟩]

/-- A callback that reports them for any host. -/
def twoKeysCallback : HostKeyCallback Unit := fun _ _ _ => some (.keyError twoKeys)

/-- Packages that know one address. -/
def oneAddress (addr : Bytes) : Packages Unit Unit where
  readFile := fun _ => .ok []
  parsePrivateKey := fun _ => .ok ()
  newKnownHosts := fun _ => .ok twoKeysCallback
  newPublicKey := .ok ⟨"ssh-ed25519"⟩
  resolveTCPAddr := fun a => if a = addr then .ok () else .error "no such host"

/-- Both keys can be negotiated. -/
theorem knownHostKeyAlgorithms_twoKeys :
    Negotiates twoKeys [keyAlgoRSASHA512, keyAlgoRSASHA256, keyAlgoRSA, "ssh-ed25519"] :=
  (knownHostKeyAlgorithms_spec (oneAddress "db:22") twoKeysCallback "db:22" ⟨"ssh-ed25519"⟩ rfl).1
    () twoKeys rfl rfl

/-- Nothing is negotiated with a host whose address does not resolve, although
    its keys are recorded. -/
theorem not_defaults_iff_unrecorded : ¬ ∀ (pkgs : Packages Unit Unit) (cb : HostKeyCallback Unit)
    (addr : Bytes) (placeholder : PublicKey), pkgs.newPublicKey = .ok placeholder →
    (knownHostKeyAlgorithms pkgs cb addr = none ↔
      ∀ remote, recorded cb addr remote placeholder = some [] ∨
        recorded cb addr remote placeholder = none) := by
  intro hall
  have hnil := (hall (oneAddress "db:22") twoKeysCallback "web:22" ⟨"ssh-ed25519"⟩ rfl).mp rfl
  rcases hnil () with h | h
  · exact absurd h (by decide)
  · cases h

end Sshexec

end Bop
