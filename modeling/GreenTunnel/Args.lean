import GreenTunnel.Checked
import GreenTunnel.Text

/-! # The command line (`args.rs`)

The parser goes over the arguments with a cursor.  An argument with an equals sign is
looked up in one table, any other in a second one, whose options take their value from
the next argument.  What the loop computes from a cursor is a run over the arguments left
(`parseLoop_eq`), and in a run the two tables agree: an option followed by its value may
as well be written with an equals sign (`parseFrom_syntaxes`).

The arguments are Unicode strings: `std::env::args`, which `Cli::parse` takes them from,
panics on any others.
-/
namespace GreenTunnel
open Checked

/-- The options of the proxy. -/
structure Cli where
  port : UInt16
  bind : Str
  dnsAddr : Str
  verbose : Bool
  fakeTtl : UInt32
  fakeSni : Str
  windowShrink : USize
  httpSpace : Bool
  mixHeaderCase : Bool
  stripAltSvc : Bool
  portRotate : Bool
  trailingDot : Bool
  filterType65 : Bool
  fallbackTarget : Str
  deriving DecidableEq

instance : Inhabited Cli where
  default :=
    { port := 8080
      bind := "127.0.0.1".toList
      dnsAddr := "127.0.0.1:53".toList
      verbose := false
      fakeTtl := 0
      fakeSni := []
      windowShrink := 0
      httpSpace := true
      mixHeaderCase := true
      stripAltSvc := true
      portRotate := true
      trailingDot := true
      filterType65 := true
      fallbackTarget := "127.0.0.1:80".toList }

namespace Cli

/-- A number that does not parse leaves the option as it was. -/
def setPort (cli : Cli) (val : Str) : Cli :=
  (parseUnsigned 65536 val).elim cli fun n => { cli with port := UInt16.ofNat n }

def setFakeTtl (cli : Cli) (val : Str) : Cli :=
  (parseUnsigned 4294967296 val).elim cli fun n => { cli with fakeTtl := UInt32.ofNat n }

def setWindowShrink (cli : Cli) (val : Str) : Cli :=
  (parseUnsigned USize.size val).elim cli fun n => { cli with windowShrink := USize.ofNat n }

def setBind (cli : Cli) (val : Str) : Cli := { cli with bind := val }

def setDnsAddr (cli : Cli) (val : Str) : Cli := { cli with dnsAddr := val }

def setFallbackTarget (cli : Cli) (val : Str) : Cli := { cli with fallbackTarget := val }

def setFakeSni (cli : Cli) (val : Str) : Cli := { cli with fakeSni := val }

end Cli

/-- The argument is one of the spellings. -/
def isOneOf (arg : Str) (spellings : List String) : Bool :=
  arg ∈ spellings.map String.toList

/-- The table for `key=val`. -/
def assign (cli : Cli) (key val : Str) : Cli :=
  if isOneOf key ["-p", "--port"] then cli.setPort val
  else if isOneOf key ["-b", "--bind"] then cli.setBind val
  else if isOneOf key ["-d", "--dns-addr", "--doh-url"] then cli.setDnsAddr val
  else if isOneOf key ["--fallback-target"] then cli.setFallbackTarget val
  else if isOneOf key ["-F", "--fake-ttl"] then cli.setFakeTtl val
  else if isOneOf key ["--fake-sni"] then cli.setFakeSni val
  else if isOneOf key ["-W", "--window-shrink"] then cli.setWindowShrink val
  else cli

/-- What the process prints before it exits. -/
inductive Printed where
  | help
  | version
  deriving DecidableEq

/-- What an argument without an equals sign does. -/
inductive Arm where
  /-- It takes the next argument, if there is one, for a value. -/
  | value (set : Cli → Str → Cli)
  | flag (set : Cli → Cli)
  | exit (printed : Printed)

/-- The table for the other arguments. -/
def arm (arg : Str) : Arm :=
  if isOneOf arg ["-p", "--port"] then .value Cli.setPort
  else if isOneOf arg ["-b", "--bind"] then .value Cli.setBind
  else if isOneOf arg ["-d", "--dns-addr", "--doh-url"] then .value Cli.setDnsAddr
  else if isOneOf arg ["-v", "--verbose"] then .flag fun cli => { cli with verbose := true }
  else if isOneOf arg ["-e", "--http-space"] then .flag fun cli => { cli with httpSpace := true }
  else if isOneOf arg ["-m", "--mix-header-case"] then
    .flag fun cli => { cli with mixHeaderCase := true }
  else if isOneOf arg ["-s", "--strip-alt-svc"] then
    .flag fun cli => { cli with stripAltSvc := true }
  else if isOneOf arg ["-R", "--port-rotate"] then .flag fun cli => { cli with portRotate := true }
  else if isOneOf arg ["-t", "--trailing-dot"] then
    .flag fun cli => { cli with trailingDot := true }
  else if isOneOf arg ["-T", "--filter-type65"] then
    .flag fun cli => { cli with filterType65 := true }
  else if isOneOf arg ["--fallback-target"] then .value Cli.setFallbackTarget
  else if isOneOf arg ["-F", "--fake-ttl"] then .value Cli.setFakeTtl
  else if isOneOf arg ["--fake-sni"] then .value Cli.setFakeSni
  else if isOneOf arg ["-W", "--window-shrink"] then .value Cli.setWindowShrink
  else if isOneOf arg ["-h", "--help"] then .exit .help
  else if isOneOf arg ["-V", "--version"] then .exit .version
  else .flag id

/-- How parsing ends: with the options, or with the process. -/
inductive Parsed where
  | options (cli : Cli)
  | exited (printed : Printed)
  deriving DecidableEq

/-- The loop with its cursor `i`; `fuel` bounds its iterations. -/
def parseLoop (args : List Str) : Nat → Nat → Cli → Checked Parsed
  | 0, _, _ => .error .stuck
  | fuel + 1, i, cli => do
    if i < args.length then
      let arg ← index args i
      match splitOnce '=' arg with
      | some (key, val) => parseLoop args fuel (i + 1) (assign cli key val)
      | none =>
        match arm arg with
        | .value set =>
          if i + 1 < args.length then
            let val ← index args (i + 1)
            parseLoop args fuel (i + 2) (set cli val)
          else parseLoop args fuel (i + 1) cli
        | .flag set => parseLoop args fuel (i + 1) (set cli)
        | .exit printed => return .exited printed
    else return .options cli

def parseFrom (args : List Str) : Checked Parsed := parseLoop args (args.length + 1) 1 default

/-! ## The run over the arguments left -/

/-- What the arguments left make of the options. -/
def run : List Str → Cli → Parsed
  | [], cli => .options cli
  | arg :: rest, cli =>
    match splitOnce '=' arg with
    | some (key, val) => run rest (assign cli key val)
    | none =>
      match arm arg with
      | .value set =>
        match rest with
        | [] => .options cli
        | val :: rest => run rest (set cli val)
      | .flag set => run rest (set cli)
      | .exit printed => .exited printed

theorem run_of_equals {arg key val : Str} (h : splitOnce '=' arg = some (key, val))
    (rest : List Str) (cli : Cli) : run (arg :: rest) cli = run rest (assign cli key val) := by
  rw [run, h]

theorem run_of_value {arg : Str} {set : Cli → Str → Cli} (h : splitOnce '=' arg = none)
    (harm : arm arg = .value set) (val : Str) (rest : List Str) (cli : Cli) :
    run (arg :: val :: rest) cli = run rest (set cli val) := by
  rw [run, h]
  simp only [harm]

theorem run_of_value_last {arg : Str} {set : Cli → Str → Cli} (h : splitOnce '=' arg = none)
    (harm : arm arg = .value set) (cli : Cli) : run [arg] cli = .options cli := by
  rw [run, h]
  simp only [harm]

theorem run_of_flag {arg : Str} {set : Cli → Cli} (h : splitOnce '=' arg = none)
    (harm : arm arg = .flag set) (rest : List Str) (cli : Cli) :
    run (arg :: rest) cli = run rest (set cli) := by
  rw [run, h]
  simp only [harm]

theorem run_of_exit {arg : Str} {printed : Printed} (h : splitOnce '=' arg = none)
    (harm : arm arg = .exit printed) (rest : List Str) (cli : Cli) :
    run (arg :: rest) cli = .exited printed := by
  rw [run, h]
  simp only [harm]

/-- **The loop ends and computes the run** over the arguments from its cursor on.  Each
iteration moves the cursor on. -/
theorem parseLoop_eq {args : List Str} {fuel i : Nat} (cli : Cli) (hfuel : 0 < fuel)
    (h : args.length < i + fuel) : parseLoop args fuel i cli = .ok (run (args.drop i) cli) := by
  induction fuel generalizing i cli with
  | zero => exact absurd hfuel (Nat.lt_irrefl 0)
  | succ fuel ih =>
    rw [parseLoop]
    by_cases hi : i < args.length
    · rw [if_pos hi, List.drop_eq_getElem_cons hi]
      simp only [index_of_lt hi, bind, Except.bind]
      cases hs : splitOnce '=' args[i] with
      | some kv => rw [run_of_equals hs, ← ih _ (by omega) (by omega)]
      | none =>
        dsimp only
        cases ha : arm args[i] with
        | value set =>
          by_cases hnext : i + 1 < args.length
          · rw [List.drop_eq_getElem_cons hnext, run_of_value hs ha,
              ← ih _ (by omega) (by omega)]
            simp only [if_pos hnext, index_of_lt hnext]
          · rw [List.drop_eq_nil_of_le (Nat.le_of_not_lt hnext), run_of_value_last hs ha]
            simp only [if_neg hnext]
            rw [ih _ (by omega) (by omega), List.drop_eq_nil_of_le (Nat.le_of_not_lt hnext), run]
        | flag set => rw [run_of_flag hs ha, ← ih _ (by omega) (by omega)]
        | exit printed =>
          rw [run_of_exit hs ha]
          rfl
    · rw [if_neg hi, List.drop_eq_nil_of_le (Nat.le_of_not_lt hi), run]
      rfl

/-- **Parsing never panics**: it is a run over the arguments behind the program name. -/
theorem parseFrom_eq (args : List Str) : parseFrom args = .ok (run args.tail default) := by
  rw [parseFrom, parseLoop_eq default (Nat.succ_pos _) (by omega), List.drop_one]

/-! ## The two syntaxes -/

/-- The options that have a value. -/
def valueKeys : List Str :=
  ["-p", "--port", "-b", "--bind", "-d", "--dns-addr", "--doh-url", "--fallback-target", "-F",
    "--fake-ttl", "--fake-sni", "-W", "--window-shrink"].map String.toList

/-- The options that end the process. -/
def exitKeys : List Str := ["-h", "--help", "-V", "--version"].map String.toList

/-- Both tables know the options with a value, and do the same for each. -/
theorem tables_agree {k : Str} (hk : k ∈ valueKeys) :
    '=' ∉ k ∧ ∃ set, arm k = .value set ∧ ∀ cli val, assign cli k val = set cli val := by
  have hno : ∀ k ∈ valueKeys, '=' ∉ k := by decide
  refine ⟨hno k hk, ?_⟩
  simp only [valueKeys, List.map_cons, List.map_nil, List.mem_cons, List.not_mem_nil,
    or_false] at hk
  rcases hk with rfl | rfl | rfl | rfl | rfl | rfl | rfl | rfl | rfl | rfl | rfl | rfl | rfl
    <;> exact ⟨_, rfl, fun _ _ => rfl⟩

/-- The arguments are complete: none of them is an option that waits for its value or
ends the process. -/
inductive Complete : List Str → Prop where
  | nil : Complete []
  | single {arg : Str} {rest : List Str} :
      arg ∉ valueKeys → arg ∉ exitKeys → Complete rest → Complete (arg :: rest)
  | withValue {k v : Str} {rest : List Str} :
      k ∈ valueKeys → Complete rest → Complete (k :: v :: rest)

/-- An argument that neither takes a value nor ends the process is a flag. -/
theorem arm_of_notMem {arg : Str} (hv : arg ∉ valueKeys) (he : arg ∉ exitKeys) :
    ∃ set, arm arg = .flag set := by
  have hother : ∀ spellings : List String,
      spellings.map String.toList ⊆ valueKeys ∨ spellings.map String.toList ⊆ exitKeys →
        ¬ isOneOf arg spellings = true := by
    rintro spellings hsub hmem
    have harg := of_decide_eq_true hmem
    rcases hsub with hsub | hsub
    · exact hv (hsub harg)
    · exact he (hsub harg)
  unfold arm
  rw [if_neg (hother ["-p", "--port"] (Or.inl (by decide))),
    if_neg (hother ["-b", "--bind"] (Or.inl (by decide))),
    if_neg (hother ["-d", "--dns-addr", "--doh-url"] (Or.inl (by decide))),
    if_neg (hother ["--fallback-target"] (Or.inl (by decide))),
    if_neg (hother ["-F", "--fake-ttl"] (Or.inl (by decide))),
    if_neg (hother ["--fake-sni"] (Or.inl (by decide))),
    if_neg (hother ["-W", "--window-shrink"] (Or.inl (by decide))),
    if_neg (hother ["-h", "--help"] (Or.inr (by decide))),
    if_neg (hother ["-V", "--version"] (Or.inr (by decide)))]
  split_ifs <;> exact ⟨_, rfl⟩

/-- **Complete arguments** make other options, whatever follows them. -/
theorem Complete.run_append {pre : List Str} (h : Complete pre) (cli : Cli) :
    ∃ cli', ∀ post, run (pre ++ post) cli = run post cli' := by
  induction h generalizing cli with
  | nil => exact ⟨cli, fun _ => rfl⟩
  | @single arg rest hv he _ ih =>
    cases hs : splitOnce '=' arg with
    | some kv =>
      obtain ⟨cli', hcli⟩ := ih (assign cli kv.1 kv.2)
      exact ⟨cli', fun post => (run_of_equals hs _ _).trans (hcli post)⟩
    | none =>
      obtain ⟨set, harm⟩ := arm_of_notMem hv he
      obtain ⟨cli', hcli⟩ := ih (set cli)
      exact ⟨cli', fun post => (run_of_flag hs harm _ _).trans (hcli post)⟩
  | @withValue k v rest hk _ ih =>
    obtain ⟨hno, set, harm, -⟩ := tables_agree hk
    obtain ⟨cli', hcli⟩ := ih (set cli v)
    exact ⟨cli', fun post =>
      (run_of_value (splitOnce_eq_none.mpr hno) harm _ _ _).trans (hcli post)⟩

/-- The arguments leave the parser between two options: behind the program name they are
complete. -/
def LeavesBetween (pre : List Str) : Prop := ∃ program args, pre = program :: args ∧ Complete args

/-- **Both syntaxes mean the same**, for every option with a value, every value, and
whatever stands before and behind it. -/
theorem parseFrom_syntaxes (pre post : List Str) (k v : Str) (hpre : LeavesBetween pre)
    (hk : k ∈ valueKeys) :
    parseFrom (pre ++ [k, v] ++ post) = parseFrom (pre ++ [k ++ '=' :: v] ++ post) := by
  obtain ⟨program, args, rfl, hargs⟩ := hpre
  obtain ⟨hno, set, harm, hassign⟩ := tables_agree hk
  obtain ⟨cli, hcli⟩ := hargs.run_append default
  have hsplit : splitOnce '=' (k ++ '=' :: v) = some (k, v) :=
    splitOnce_eq_some.mpr ⟨hno, rfl⟩
  rw [parseFrom_eq, parseFrom_eq]
  simp only [List.cons_append, List.append_assoc, List.tail_cons, hcli, List.nil_append]
  rw [run_of_value (splitOnce_eq_none.mpr hno) harm, run_of_equals hsplit, hassign]

theorem parseFrom_syntaxes_example :
    parseFrom (["greentunnelRS".toList, "-v".toList] ++ ["--port".toList, "=1".toList] ++
      ["-b".toList]) =
    parseFrom (["greentunnelRS".toList, "-v".toList] ++ ["--port".toList ++ '=' :: "=1".toList] ++
      ["-b".toList]) :=
  parseFrom_syntaxes ["greentunnelRS".toList, "-v".toList] ["-b".toList] "--port".toList
    "=1".toList ⟨_, _, rfl, .single (by decide) (by decide) .nil⟩ (by decide)

end GreenTunnel
