import VirtuosoFlow.Tunnel.System
import VirtuosoFlow.Plugin.Database

/-!
# Calling the tunnel

`vfp_rpc_client.il` and `skillrpc.py`: one call runs the helper, which sends a request to the
tunnel and hands its answer back. The request or the answer may be lost, and a request may
arrive after the helper stopped waiting.
-/

namespace VirtuosoFlow.Plugin

open Tunnel (Method)

/-- What becomes of one exchange with the tunnel. -/
inductive Exchange where
  | answered
  | requestLost
  | replyLost
  | late
  deriving DecidableEq

/-- The tunnel serves the request while the helper waits for it. -/
def Exchange.Served (e : Exchange) : Prop := e = .answered ∨ e = .replyLost

/-- What a call of the plugin finds in the Virtuoso process around it. -/
structure Session where
  /-- The surroundings of the tunnel while it serves the requests of the call. -/
  env : Tunnel.Env
  /-- What becomes of the call's request of a method. -/
  exchange : Method → Exchange
  /-- `getCurrentTime()` when a checkpoint is named. -/
  currentTime : String
  /-- `vfpIsoTime()` when a transaction is sent. -/
  isoTime : String
  /-- `vfpStateGet('sessionId)`. -/
  sessionId : Option String
  /-- `vfpStateGet('actor)`. -/
  actor : Option String
  /-- Whether `vfpWriteFile` can write the params file. -/
  paramsWritable : Bool
  printer : Printer
  /-- The connectivity block of a transaction, from the cellview before and after. -/
  connectivity : CellView → CellView → Option Json
  /-- The geometry block of a layout transaction, from the cellview before and after. -/
  geometry : CellView → CellView → Json
  /-- Whether the comparison of a stored connectivity snapshot with a cellview, and its text, go through. -/
  compares : Value → CellView → Bool
  cadence : Cadence

/-- A process whose calls are answered, for examples. -/
def Session.sample : Session where
  env := .sample
  exchange _ := .answered
  currentTime := "Jun 13 14:30:05 2026"
  isoTime := "Jun 13 14:30:05 2026"
  sessionId := none
  actor := none
  paramsWritable := true
  printer := .sample
  connectivity _ _ := none
  geometry _ _ := .obj []
  compares _ _ := true
  cadence := .sample false

/-- The pair `(ok payload)`. -/
structure Reply where
  ok : Bool
  payload : Value

/-- The pair the helper prints, or the plugin builds, when a call fails. -/
def Reply.failed (code : Option ℤ) (message : String) : Reply :=
  ⟨false, Value.ofJson (.obj ((code.toList.map fun c => ("code", .int c)) ++
    [("message", .str message)]))⟩

/-- The pair printed for the outcome of a handler. -/
def Reply.ofOutcome (env : Tunnel.Env) : Except Tunnel.PyExc Json → Reply
  | .ok result => ⟨true, Value.ofJson result⟩
  | .error (.rpc code m data) => .failed (some code) (env.strExc (.rpc code m data))
  | .error e => .failed (some Tunnel.internalError) (env.strExc e)

/-- The design database, the tunnel, and the requests that are still on their way to it. -/
structure World where
  db : Database
  tunnel : Tunnel.Tunnel
  inFlight : List (Tunnel.Env × Method × Obj)

/-- The tunnel serves a request. -/
def World.serve (w : World) (env : Tunnel.Env) (method : Method) (params : Obj) : World :=
  { w with tunnel := ((Tunnel.handle env method params).exec w.tunnel).2 }

/-- The requests that were on their way arrive. -/
def World.settle (w : World) : World :=
  { w.inFlight.foldl (fun w r => w.serve r.1 r.2.1 r.2.2) w with inFlight := [] }

/-- `vfpRpcExec(method args)`. -/
def vfpRpcExec (s : Session) (method : Method) (params : Obj) (w : World) : Reply × World :=
  match s.exchange method with
  | .answered =>
    (.ofOutcome s.env ((Tunnel.handle s.env method params).exec w.tunnel).1,
      w.serve s.env method params)
  | .requestLost => (.failed (some (-32000)) "cannot reach tunnel", w)
  | .replyLost => (.failed (some (-32000)) "cannot reach tunnel", w.serve s.env method params)
  | .late => (.failed (some (-32000)) "cannot reach tunnel",
      { w with inFlight := w.inFlight ++ [(s.env, method, params)] })

/-- `vfpRpcExec(method list("--param" "key=value"))`. -/
def vfpRpcParam (s : Session) (method : Method) (key value : String) (w : World) : Reply × World :=
  vfpRpcExec s method [(key, .str value)] w

/-- A tree of `vfpJObj` and `vfpJArr` written to a params file, and the call that reads the file. -/
def vfpRpcFile (s : Session) (method : Method) (params : Obj) (w : World) : Reply × World :=
  if s.paramsWritable then
    if sendable (.obj params) then vfpRpcExec s method params w
    else (.failed (some (-32000)) "helper exec failed", w)
  else (.failed none "could not write transaction file", w)

section Effects

variable {s : Session} {method : Method} {params : Obj} {w w' : World} {reply : Reply}

/-- A call does not touch the design. -/
@[simp] theorem db_vfpRpcExec : (vfpRpcExec s method params w).2.db = w.db := by
  unfold vfpRpcExec
  split <;> rfl

/-- A call leaves the design. -/
@[simp] theorem db_vfpRpcFile : (vfpRpcFile s method params w).2.db = w.db := by
  unfold vfpRpcFile
  split
  · split
    · exact db_vfpRpcExec
    · rfl
  · rfl

/-- A request that is served changes the tunnel, whether or not the reply arrives. -/
theorem vfpRpcExec_served (h : (s.exchange method).Served) :
    (vfpRpcExec s method params w).2 = w.serve s.env method params := by
  rcases h with h | h <;> rw [vfpRpcExec, h]

/-- A call is answered `ok` only by a handler that returned. -/
theorem vfpRpcExec_ok (h : (vfpRpcExec s method params w).1.ok = true) :
    ∃ result, (Tunnel.handle s.env method params).exec w.tunnel =
        (.ok result, (vfpRpcExec s method params w).2.tunnel) ∧
      (vfpRpcExec s method params w).1.payload = Value.ofJson result ∧
      (vfpRpcExec s method params w).2.inFlight = w.inFlight := by
  unfold vfpRpcExec at h ⊢
  split at h
  · cases hout : ((Tunnel.handle s.env method params).exec w.tunnel).1 with
    | ok result =>
      exact ⟨result, Prod.ext hout rfl, rfl, rfl⟩
    | error e =>
      rw [hout] at h
      cases e <;> simp [Reply.ofOutcome, Reply.failed] at h
  · simp [Reply.failed] at h
  · simp [Reply.failed] at h
  · simp [Reply.failed] at h

/-- The same for a call with a params file: the file was written and could be read. -/
theorem vfpRpcFile_ok (h : (vfpRpcFile s method params w).1.ok = true) :
    sendable (.obj params) = true ∧
      vfpRpcFile s method params w = vfpRpcExec s method params w := by
  unfold vfpRpcFile at h ⊢
  split at h
  · split at h
    · rename_i hwritable hsendable
      rw [if_pos hwritable, if_pos hsendable]
      exact ⟨hsendable, rfl⟩
    · simp [Reply.failed] at h
  · simp [Reply.failed] at h

end Effects

end VirtuosoFlow.Plugin
