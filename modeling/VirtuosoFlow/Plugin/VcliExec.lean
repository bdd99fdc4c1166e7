import VirtuosoFlow.Base.ShellCommand
import VirtuosoFlow.Tunnel.Result

/-!
# The command that evaluates a SKILL expression

`_vcli_exec` of `delegated_netlist.py` runs `vcli` next to the worker, or over ssh. Over ssh the
program, its arguments and its environment are one text that a remote shell splits, and `_q` puts each
part between quotes. Both ways the same program runs with the same arguments and variables.
-/

namespace VirtuosoFlow.Plugin

open Base.Shell

section Source

/-- `_q(s)`. -/
def shellQuoted (s : String) : String :=
  "'" ++ String.ofList (s.toList.flatMap fun c => if c = '\'' then ['\'', '\\', '\'', '\''] else [c]) ++ "'"

/-- `DAEMON`, `SPECTRE` and `VCLI`, as the configuration has them. -/
structure VcliPaths where
  daemon : String
  spectre : String
  vcli : String

/-- `_is_local()`. -/
def isLocal (target : String) : Bool :=
  ["", "local", "localhost"].contains (String.ofList ((Tunnel.strip target.toList).map Char.toLower))

/-- `remote`: what the shell of the target gets. -/
def remoteLine (paths : VcliPaths) (skillExpr : String) : String :=
  "RB_DAEMON_PATH=" ++ shellQuoted paths.daemon ++ " VB_SPECTRE_CMD=" ++ shellQuoted paths.spectre ++ " " ++
    shellQuoted paths.vcli ++ " --quiet --format json skill exec " ++ shellQuoted skillExpr

/-- What `subprocess.run` is given: the variables added to the environment, and `argv`. -/
structure Launch where
  environment : List (String × String)
  argv : List String

/-- The launch of `_vcli_exec(skill_expr)` for `VFP_VCLI_TARGET`. -/
def vcliExec (target : String) (paths : VcliPaths) (skillExpr : String) : Launch :=
  if isLocal target then
    ⟨[("RB_DAEMON_PATH", paths.daemon), ("VB_SPECTRE_CMD", paths.spectre)],
      [paths.vcli, "--quiet", "--format", "json", "skill", "exec", skillExpr]⟩
  else
    ⟨[], ["ssh", "-o", "BatchMode=yes", "-o", "LogLevel=ERROR", "-o", "ConnectTimeout=10", target,
      remoteLine paths skillExpr]⟩

end Source

section Quoting

variable {target : String} {paths : VcliPaths} {skillExpr s : String}

/-- What a launch runs: `argv` itself, or what the remote shell makes of its last member. -/
def Launch.command (launch : Launch) (target : String) : Option Command :=
  if isLocal target then
    some ⟨launch.environment.map fun v => (v.1.toList, v.2.toList), launch.argv.map String.toList⟩
  else launch.argv.getLast?.bind fun line => simpleCommand line.toList

/-- The command that the expression is meant to be evaluated by. -/
def vcliCommand (paths : VcliPaths) (skillExpr : String) : Command where
  assignments := [("RB_DAEMON_PATH".toList, paths.daemon.toList),
    ("VB_SPECTRE_CMD".toList, paths.spectre.toList)]
  words := [paths.vcli.toList, "--quiet".toList, "--format".toList, "json".toList, "skill".toList,
    "exec".toList, skillExpr.toList]

/-- The quoting function is the shell's own. -/
theorem toList_shellQuoted (s : String) : (shellQuoted s).toList = shellQuote s.toList := by
  simp [shellQuoted, shellQuote]

/-- A text of ordinary characters. -/
theorem ordinary_of_all {text : List Char} (h : (text.all fun c => decide (Ordinary c)) = true) :
    ∀ c ∈ text, Ordinary c := by
  simpa using h

/-- The words of the remote line, as they are written. -/
def remoteWords (paths : VcliPaths) (skillExpr : String) : List Written :=
  [.ofQuoted "RB_DAEMON_PATH=".toList paths.daemon.toList (ordinary_of_all rfl),
    .ofQuoted "VB_SPECTRE_CMD=".toList paths.spectre.toList (ordinary_of_all rfl),
    .ofQuoted [] paths.vcli.toList (ordinary_of_all rfl),
    .ofPlain "--quiet".toList (ordinary_of_all rfl) (by decide),
    .ofPlain "--format".toList (ordinary_of_all rfl) (by decide),
    .ofPlain "json".toList (ordinary_of_all rfl) (by decide),
    .ofPlain "skill".toList (ordinary_of_all rfl) (by decide),
    .ofPlain "exec".toList (ordinary_of_all rfl) (by decide),
    .ofQuoted [] skillExpr.toList (ordinary_of_all rfl)]

/-- The line is made of words with a blank between. -/
theorem toList_remoteLine (paths : VcliPaths) (skillExpr : String) :
    (remoteLine paths skillExpr).toList =
      [' '].intercalate ((remoteWords paths skillExpr).map Written.spelling) := by
  unfold remoteLine
  simp only [String.toList_append, toList_shellQuoted]
  simp [remoteWords, Written.spelling, Written.ofQuoted, Written.ofPlain, List.intercalate]

/-- The shell reads it as one simple command. -/
theorem simpleCommand_remoteLine (paths : VcliPaths) (skillExpr : String) :
    simpleCommand (remoteLine paths skillExpr).toList = some (vcliCommand paths skillExpr) := by
  have hnames : IsVariable "RB_DAEMON_PATH".toList ∧ IsVariable "VB_SPECTRE_CMD".toList :=
    ⟨⟨by decide, rfl, rfl⟩, ⟨by decide, rfl, rfl⟩⟩
  have hdaemon : assignedVariable ("RB_DAEMON_PATH=".toList ++ shellQuote paths.daemon.toList) =
      some "RB_DAEMON_PATH".toList := assignedVariable_of_name hnames.1 _
  have hspectre : assignedVariable ("VB_SPECTRE_CMD=".toList ++ shellQuote paths.spectre.toList) =
      some "VB_SPECTRE_CMD".toList := assignedVariable_of_name hnames.2 _
  have hvcli : assignedVariable ([] ++ shellQuote paths.vcli.toList) = none := assignedVariable_shellQuote _
  rw [toList_remoteLine, remoteWords, Written.simpleCommand_intercalate]
  simp only [List.map_cons, List.map_nil, Written.spelling, Written.text, Written.ofQuoted, Written.ofPlain,
    Option.map_some, Option.map_none, Option.getD_some, Option.getD_none, commandOf, hdaemon, hspectre, hvcli]
  rfl

/-- A quoted string is one word, whatever it holds; so the remote line is the words that were meant, and
what runs on the target is what runs next to the worker. -/
theorem shellQuoted_exact (s target skillExpr : String) (paths : VcliPaths) :
    tokens (shellQuoted s).toList = some [.word s.toList] ∧
    tokens (remoteLine paths skillExpr).toList = some
      ([("RB_DAEMON_PATH=" ++ paths.daemon).toList, ("VB_SPECTRE_CMD=" ++ paths.spectre).toList,
        paths.vcli.toList, "--quiet".toList, "--format".toList, "json".toList, "skill".toList,
        "exec".toList, skillExpr.toList].map Token.word) ∧
    (vcliExec target paths skillExpr).command target = some (vcliCommand paths skillExpr) := by
  have hwords : ∀ first others, tokens ([' '].intercalate ((first :: others).map Written.spelling)) =
      some ((first :: others).map fun word => .word word.text) := by
    intro first others
    rw [tokens, ← map_fst_runSpelled .gap [], Written.runSpelled_intercalate]
    simp [Function.comp_def]
  refine ⟨?_, ?_, ?_⟩
  · have hword := hwords (.ofQuoted [] s.toList (ordinary_of_all rfl)) []
    rw [toList_shellQuoted]
    simpa [Written.spelling, Written.text, Written.ofQuoted, List.intercalate] using hword
  · rw [toList_remoteLine, remoteWords, hwords]
    simp only [List.map_cons, List.map_nil, Written.text, Written.ofQuoted, Written.ofPlain, Option.getD_some,
      Option.getD_none, String.toList_append, List.append_nil, List.nil_append]
  · rw [Launch.command, vcliExec]
    cases isLocal target with
    | true => rfl
    | false =>
      simp only [Bool.false_eq_true, if_false, List.getLast?_cons_cons, List.getLast?_singleton,
        Option.bind_some]
      exact simpleCommand_remoteLine paths skillExpr

end Quoting

end VirtuosoFlow.Plugin
