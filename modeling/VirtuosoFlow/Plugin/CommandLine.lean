import VirtuosoFlow.Base.Dict
import VirtuosoFlow.Base.ShellWords
import VirtuosoFlow.Tunnel.System

/-!
# The command line of a call

`vfp_rpc_client.il`: a call of the tunnel is a shell command that runs the helper. The method stands
in it as it is, and every argument and path between single quotes. The shell reads the words that
were meant exactly when no argument and no path contains a single quote, which no caller checks.
-/

namespace VirtuosoFlow.Plugin

open Base.Shell

/-- What the Virtuoso process around a call determines of its command line. -/
structure ShellSetup where
  /-- `vfpRepoRoot()`. -/
  repoRoot : String
  /-- `getShellEnvVar("VFP_PYTHON")`. -/
  python : Option String
  /-- `getShellEnvVar("TMPDIR")`. -/
  tmpDir : Option String
  /-- `VFP_RPC_SEQ`. -/
  rpcSeq : ℕ

namespace ShellSetup

variable (env : ShellSetup)

/-- The directory of the Python packages. -/
def vfpTunnelDir : String := env.repoRoot ++ "/tunnel"

/-- The interpreter of the helper. -/
def vfpRpcPython : String := env.python.getD "/usr/bin/python3"

/-- The directory of the helper's files. -/
def vfpHelperOutDir : String := env.tmpDir.getD "/tmp" ++ "/vfp_skill"

/-- `out`, with the number that `vfpRpcSeq()` draws. -/
def out : String := env.vfpHelperOutDir ++ "/resp_" ++ toString (env.rpcSeq + 1) ++ ".sx"

/-- The file that the helper's errors go to. -/
def errf : String := env.vfpHelperOutDir ++ "/skillrpc.err"

end ShellSetup

/-- `vfpShQuote(s)`. -/
def vfpShQuote (s : String) : String := "'" ++ s ++ "'"

/-- The name of a method; it stands in the command line without quotes. -/
structure RpcMethod where
  name : String
  nonempty : name.toList ≠ []
  ordinary : ∀ c ∈ name.toList, Ordinary c

/-- The methods that the plugin calls. -/
def rpcMethods : List String :=
  ["proposal.list", "proposal.get", "proposal.approve", "proposal.reject", "proposal.mark_failed",
    "transaction.create", "transaction.list", "transaction.rollback", "transaction.mark_rolled_back",
    "transaction.mark_failed", "run.create", "run.set_status", "result.latest", "job.create",
    "job.run", "job.get", "design.context.update", "netlist.pending", "netlist.complete",
    "extension.register", "action.pending", "action.complete", "session.register", "session.ping",
    "tunnel.status"]

/-- `cmd` in `vfpRpcExec(method args)`. -/
def rpcCommand (env : ShellSetup) (method : RpcMethod) (args : List String) : String :=
  let qargs := args.map vfpShQuote
  "env -u PYTHONHOME LD_LIBRARY_PATH= PYTHONPATH=" ++ vfpShQuote env.vfpTunnelDir ++ " " ++
    vfpShQuote env.vfpRpcPython ++ " -m vfp_tunnel.skillrpc " ++ method.name ++ " " ++
    " ".intercalate qargs ++ " > " ++ vfpShQuote env.out ++ " 2>> " ++ vfpShQuote env.errf

/-- A word of the command line. -/
def wordToken (s : String) : Token := .word s.toList

/-- What the command line is to consist of: the prefix, the method, the arguments and the
redirections. -/
def rpcTokens (env : ShellSetup) (method : RpcMethod) (args : List String) : List Token :=
  [wordToken "env", wordToken "-u", wordToken "PYTHONHOME", wordToken "LD_LIBRARY_PATH=",
    wordToken ("PYTHONPATH=" ++ env.vfpTunnelDir), wordToken env.vfpRpcPython, wordToken "-m",
    wordToken "vfp_tunnel.skillrpc", wordToken method.name] ++ args.map wordToken ++
    [.operator ['>'], wordToken env.out, .ioNumber ['2'], .operator ['>', '>'], wordToken env.errf]

/-- The arguments of `vfpApproveProposal(proposalId)`. -/
def approveArgs (proposalId : String) : List String := ["--param", "proposal_id=" ++ proposalId]

section CommandLine

variable {env : ShellSetup} {method : RpcMethod} {args : List String}

/-- The quoting function is the shell's own. -/
theorem toList_vfpShQuote (s : String) : (vfpShQuote s).toList = quote s.toList := by
  simp [vfpShQuote, quote]

/-- The command line, part by part. -/
theorem toList_rpcCommand : (rpcCommand env method args).toList =
    "env -u PYTHONHOME LD_LIBRARY_PATH= PYTHONPATH=".toList ++ (quote env.vfpTunnelDir.toList ++
      ' ' :: (quote env.vfpRpcPython.toList ++ ' ' :: ("-m vfp_tunnel.skillrpc ".toList ++
      (method.name.toList ++ ' ' :: ([' '].intercalate ((args.map String.toList).map quote) ++
      ' ' :: ("> ".toList ++ (quote env.out.toList ++ ' ' :: ("2>> ".toList ++
      quote env.errf.toList)))))))) := by
  have hargs : (args.map vfpShQuote).map String.toList = (args.map String.toList).map quote := by
    simp [toList_vfpShQuote]
  have hblank : " ".toList = [' '] := by decide
  have hmodule : " -m vfp_tunnel.skillrpc ".toList = ' ' :: "-m vfp_tunnel.skillrpc ".toList := by decide
  have hstdout : " > ".toList = ' ' :: "> ".toList := by decide
  have hstderr : " 2>> ".toList = ' ' :: "2>> ".toList := by decide
  unfold rpcCommand
  simp only [String.toList_append, toList_vfpShQuote, String.toList_intercalate, hargs,
    hblank, hmodule, hstdout, hstderr, List.append_assoc, List.cons_append, List.nil_append]

/-- How the command begins, as tokens. -/
theorem feed_prefix : feed .gap "env -u PYTHONHOME LD_LIBRARY_PATH= PYTHONPATH=".toList =
    some ([wordToken "env", wordToken "-u", wordToken "PYTHONHOME", wordToken "LD_LIBRARY_PATH="],
      .word "PYTHONPATH=".toList true .plain) := by
  decide

/-- How the module is named, as tokens. -/
theorem feed_module : feed .gap "-m vfp_tunnel.skillrpc ".toList =
    some ([wordToken "-m", wordToken "vfp_tunnel.skillrpc"], .gap) := by
  decide

/-- Where the output goes. -/
theorem feed_stdout : feed .gap "> ".toList = some ([.operator ['>']], .gap) := by
  decide

/-- Where the errors go. -/
theorem feed_stderr : feed .gap "2>> ".toList = some ([.ioNumber ['2'], .operator ['>', '>']], .gap) := by
  decide

/-- The command line is read as it was meant exactly when nothing between quotes contains one. -/
theorem tokens_rpcCommand_iff : tokens (rpcCommand env method args).toList =
      some (rpcTokens env method args) ↔
    '\'' ∉ env.vfpTunnelDir.toList ∧ '\'' ∉ env.vfpRpcPython.toList ∧
      (∀ a ∈ args, '\'' ∉ a.toList) ∧ '\'' ∉ env.out.toList ∧ '\'' ∉ env.errf.toList := by
  have hquotes : (∀ s ∈ args.map String.toList, '\'' ∉ s) ↔ ∀ a ∈ args, '\'' ∉ a.toList := by
    simp
  -- the tokens in the parts in which the line is read
  have htokens : rpcTokens env method args =
      [wordToken "env", wordToken "-u", wordToken "PYTHONHOME", wordToken "LD_LIBRARY_PATH="] ++
        (.word ("PYTHONPATH=".toList ++ env.vfpTunnelDir.toList) ::
          .word env.vfpRpcPython.toList :: ([wordToken "-m", wordToken "vfp_tunnel.skillrpc"] ++
            (.word method.name.toList :: ((args.map String.toList).map Token.word ++
              ([.operator ['>']] ++ (.word env.out.toList ::
                ([.ioNumber ['2'], .operator ['>', '>']] ++ [.word env.errf.toList]))))))) := by
    simp [rpcTokens, wordToken]
  rw [tokens, toList_rpcCommand, htokens, run_append_iff feed_prefix, run_quote_blank_iff,
    run_gap_quote_blank_iff, run_append_iff feed_module,
    run_gap_ordinary_blank_iff method.ordinary method.nonempty, run_gap_quotes_iff,
    run_append_iff feed_stdout, run_gap_quote_blank_iff, run_append_iff feed_stderr,
    run_gap_quote_end_iff, hquotes]

/-- A number holds no quote. -/
theorem quote_not_mem_toString (n : ℕ) : '\'' ∉ (toString n).toList := by
  rw [Nat.toString_eq_ofList_toDigits, String.toList_ofList]
  intro h
  have hdigit := Nat.isDigit_of_mem_toDigits (by omega) (by omega) h
  simp at hdigit

/-- The directory of the packages holds a quote only if the root does. -/
theorem quote_not_mem_vfpTunnelDir_iff :
    '\'' ∉ env.vfpTunnelDir.toList ↔ '\'' ∉ env.repoRoot.toList := by
  have hname : '\'' ∉ "/tunnel".toList := by decide
  simp only [ShellSetup.vfpTunnelDir, String.toList_append, List.mem_append, hname, or_false]

/-- The directory of the files holds a quote only if the temporary one does. -/
theorem quote_not_mem_vfpHelperOutDir_iff :
    '\'' ∉ env.vfpHelperOutDir.toList ↔ '\'' ∉ (env.tmpDir.getD "/tmp").toList := by
  have hname : '\'' ∉ "/vfp_skill".toList := by decide
  simp only [ShellSetup.vfpHelperOutDir, String.toList_append, List.mem_append, hname, or_false]

/-- So does the file of the errors. -/
theorem quote_not_mem_errf_iff :
    '\'' ∉ env.errf.toList ↔ '\'' ∉ (env.tmpDir.getD "/tmp").toList := by
  have hname : '\'' ∉ "/skillrpc.err".toList := by decide
  rw [← quote_not_mem_vfpHelperOutDir_iff]
  simp only [ShellSetup.errf, String.toList_append, List.mem_append, hname, or_false]

/-- So does the file of the output. -/
theorem quote_not_mem_out_iff :
    '\'' ∉ env.out.toList ↔ '\'' ∉ (env.tmpDir.getD "/tmp").toList := by
  have hname : '\'' ∉ "/resp_".toList := by decide
  have hnumber := quote_not_mem_toString (env.rpcSeq + 1)
  have hext : '\'' ∉ ".sx".toList := by decide
  rw [← quote_not_mem_vfpHelperOutDir_iff]
  simp only [ShellSetup.out, String.toList_append, List.mem_append, hname, hnumber, hext, or_false]

/-- The shell reads the fixed words, the method and the arguments, each as one word, and the
redirections exactly when no argument contains a single quote and the paths contain none. -/
theorem rpcCommand_words_iff (env : ShellSetup) (method : RpcMethod) (args : List String) :
    tokens (rpcCommand env method args).toList = some (rpcTokens env method args) ↔
      (∀ a ∈ args, '\'' ∉ a.toList) ∧ '\'' ∉ env.repoRoot.toList ∧
        '\'' ∉ env.vfpRpcPython.toList ∧ '\'' ∉ (env.tmpDir.getD "/tmp").toList := by
  rw [tokens_rpcCommand_iff, quote_not_mem_vfpTunnelDir_iff, quote_not_mem_out_iff,
    quote_not_mem_errf_iff]
  constructor
  · rintro ⟨hroot, hpython, hargs, htmp, -⟩
    exact ⟨hargs, hroot, hpython, htmp⟩
  · rintro ⟨hargs, hroot, hpython, htmp⟩
    exact ⟨hroot, hpython, hargs, htmp, htmp⟩

/-- A character of the name of a method. -/
def isMethodChar (c : Char) : Bool := c.isLower || c == '.' || c == '_'

/-- What method names consist of needs no quoting. -/
theorem ordinary_of_isMethodChar {c : Char} (h : isMethodChar c = true) : Ordinary c := by
  have hnot : ∀ l : List Char, (l.all fun x => !isMethodChar x) = true → c ∉ l := by
    intro l hl hmem
    have hc := List.all_eq_true.mp hl c hmem
    rw [h] at hc
    cases hc
  have hblank := hnot [' ', '\t'] (by decide)
  simp only [List.mem_cons, List.not_mem_nil, or_false, not_or] at hblank
  refine ⟨?_, ?_, ?_, hnot _ (by decide)⟩
  · simp [isBlank, hblank.1, hblank.2]
  · simpa [startsOperator] using hnot ['&', '|', ';', '<', '>', '(', ')', '\n'] (by decide)
  · simpa [expands] using hnot ['$', '\u0060', '*', '?', '['] (by decide)

/-- The methods that the plugin calls have such names. -/
theorem all_rpcMethods :
    (rpcMethods.all fun m => !m.toList.isEmpty && m.toList.all isMethodChar) = true := by
  decide +kernel

/-- The methods that the plugin calls need no quotes. -/
theorem exists_rpcMethod {name : String} (h : name ∈ rpcMethods) :
    ∃ method : RpcMethod, method.name = name := by
  have hname := List.all_eq_true.mp all_rpcMethods name h
  rw [Bool.and_eq_true, List.all_eq_true] at hname
  obtain ⟨hnonempty, hchars⟩ := hname
  refine ⟨⟨name, ?_, fun c hc => ordinary_of_isMethodChar (hchars c hc)⟩, rfl⟩
  rintro hnil
  simp [hnil] at hnonempty

end CommandLine

/-- A client's name for its proposal. -/
def quotedId : String := "p'; touch x; '"

/-- Its proposal. -/
def quotedProposal : Obj :=
  [("schema_version", .str "0.1"), ("proposal_id", .str quotedId), ("status", .str "pending"),
    ("changes", .arr [])]

/-- The surroundings of a call, for examples. -/
def ShellSetup.sample : ShellSetup := ⟨"/vfp", none, none, 0⟩

/-- `"proposal.approve"`. -/
def RpcMethod.approve : RpcMethod :=
  ⟨"proposal.approve", by decide, fun c hc =>
    of_decide_eq_true (List.all_eq_true.mp
      (show "proposal.approve".toList.all (Ordinary ·) = true by decide) c hc)⟩

/-- The tunnel accepts the proposal, but approving it is not the command that was meant: the argument
alone is read as three commands, of which `touch` is one. -/
theorem approve_runs_touch :
    (∃ p, ((Tunnel.mProposalCreate .sample [("proposal", .obj quotedProposal)]).exec
        (.fresh .empty)).2.proposals.records.get? (.str quotedId) = some p) ∧
      tokens (rpcCommand .sample .approve (approveArgs quotedId)).toList ≠
        some (rpcTokens .sample .approve (approveArgs quotedId)) ∧
      tokens (vfpShQuote ("proposal_id=" ++ quotedId)).toList =
        some [wordToken "proposal_id=p", .operator [';'], wordToken "touch", wordToken "x", .operator [';'],
          wordToken ""] := by
  refine ⟨⟨_, rfl⟩, ?_, by decide⟩
  rw [Ne, tokens_rpcCommand_iff]
  rintro ⟨-, -, hargs, -⟩
  have hquote : '\'' ∉ ("proposal_id=" ++ quotedId).toList := hargs _ (by simp [approveArgs])
  exact absurd hquote (by decide)

end VirtuosoFlow.Plugin
