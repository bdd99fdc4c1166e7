import VirtuosoFlow.Tunnel.Python

/-!
# The dispatcher

`rpc/jsonrpc.py`: how a parsed message becomes a call of a registered method, and what is
answered. A method may change the state and then raise; `dispatch` answers with an error.
-/

namespace VirtuosoFlow.Tunnel

open Base

variable {σ : Type}

/-- `PARSE_ERROR`. -/
def parseError : ℤ := -32700
/-- `INVALID_REQUEST`. -/
def invalidRequest : ℤ := -32600
/-- `METHOD_NOT_FOUND`. -/
def methodNotFound : ℤ := -32601

/-- The registered methods of a dispatcher, and the texts it formats. -/
structure Dispatcher (σ : Type) where
  /-- `self._methods`. -/
  methods : List (String × (Obj → Prog PyExc σ Json))
  /-- `"%s" % v`. -/
  str : Json → String
  /-- `e.message` of a `JsonRpcError`, `"%s: %s" % (type(e).__name__, e)` of another exception. -/
  excText : PyExc → String

/-- `response(id_, result)`. -/
def response (id result : Json) : Obj := [("jsonrpc", .str "2.0"), ("id", id), ("result", result)]

/-- The member `data` of an error, where it is not `None`. -/
def errorData : Option Json → Obj
  | none => []
  | some .null => []
  | some data => [("data", data)]

/-- `error(id_, code, message, data)`. -/
def error (id : Json) (code : ℤ) (message : String) (data : Option Json) : Obj :=
  [("jsonrpc", .str "2.0"), ("id", id),
    ("error", .obj (("code", .int code) :: ("message", .str message) :: errorData data))]

/-- `v is None`. -/
def isNone : Json → Bool
  | .null => true
  | _ => false

/-- A message that names the version and a method. -/
def isRequest (m : Obj) : Bool :=
  (Obj.get m "jsonrpc").pyEq (.str "2.0") && (m.lookup "method").isSome

/-- The params of a message; none where they are no object. -/
def paramsOf (m : Obj) : Option Obj :=
  match Obj.get m "params" with
  | .null => some []
  | .obj params => some params
  | _ => none

namespace Dispatcher

variable (d : Dispatcher σ)

/-- The answer to an exception of a method. -/
def errorOf (id : Json) (e : PyExc) : Obj :=
  match e with
  | .rpc code _ data => error id code (d.excText e) data
  | _ => error id internalError (d.excText e) none

/-- The answer to what a method returned or raised. -/
def answer (id : Json) : Except PyExc Json → Option Obj
  | .ok result => if isNone id then none else some (response id result)
  | .error e => some (d.errorOf id e)

/-- `fn(params)` between `try` and `except`, and the answer. -/
def call (id : Json) (fn : Obj → Prog PyExc σ Json) (params : Obj) : Prog PyExc σ (Option Obj) := fun s =>
  (.ok (d.answer id ((fn params).exec s).1), ((fn params).exec s).2)

/-- The answer to a method that is not there. -/
def unknownMethod (id method : Json) : Option Obj :=
  if isNone id then none else some (error id methodNotFound ("Method not found: " ++ d.str method) none)

/-- The method of a request whose params are an object. -/
def invoke (id method : Json) (params : Obj) : Prog PyExc σ (Option Obj) :=
  match method.key? with
  | none => throw .typeError
  | some (.str name) =>
    match d.methods.lookup name with
    | some fn => d.call id fn params
    | none => pure (d.unknownMethod id method)
  | some _ => pure (d.unknownMethod id method)

/-- `dispatch(msg)` of an object. -/
def dispatchObj (m : Obj) : Prog PyExc σ (Option Obj) :=
  if isRequest m then
    match paramsOf m with
    | some params => d.invoke (Obj.get m "id") (Obj.get m "method") params
    | none => pure (some (error (Obj.get m "id") invalidParams "params must be an object" none))
  else pure (some (error (Obj.get m "id") invalidRequest "Invalid Request" none))

/-- `dispatch(msg)`. -/
def dispatch : Json → Prog PyExc σ (Option Obj)
  | .obj m => d.dispatchObj m
  | _ => pure (some (error .null invalidRequest "Invalid Request" none))

end Dispatcher

section Answers

variable {d : Dispatcher σ}

/-- A response carries the id it is given. -/
@[simp] theorem get_id_response (id result : Json) : Obj.get (response id result) "id" = id := rfl

/-- So does an error. -/
@[simp] theorem get_id_error (id : Json) (code : ℤ) (message : String) (data : Option Json) :
    Obj.get (error id code message data) "id" = id := rfl

/-- So does the error for an exception. -/
@[simp] theorem get_id_errorOf (id : Json) (e : PyExc) : Obj.get (d.errorOf id e) "id" = id := by
  cases e <;> rfl

/-- A call answers with what the method gives or raises. -/
@[simp] theorem exec_call (id : Json) (fn : Obj → Prog PyExc σ Json) (params : Obj) (s : σ) :
    (d.call id fn params).exec s = (.ok (d.answer id ((fn params).exec s).1), ((fn params).exec s).2) := rfl

/-- The name of the method of a request has to be looked up, and cannot be. -/
def Unhashable (m : Obj) : Prop := isRequest m = true ∧ (paramsOf m).isSome ∧ (Obj.get m "method").key? = none

/-- A request without an id. -/
def Notification (m : Obj) : Prop := isRequest m = true ∧ isNone (Obj.get m "id") = true

/-- A message calls a method with its params. -/
def Calls (d : Dispatcher σ) (m : Obj) (fn : Obj → Prog PyExc σ Json) (params : Obj) : Prop :=
  paramsOf m = some params ∧ ∃ name, Obj.get m "method" = .str name ∧ d.methods.lookup name = some fn

/-- The cases of `dispatch`. -/
inductive DispatchCase (d : Dispatcher σ) (m : Obj) (s : σ) : Except PyExc (Option Obj) → Prop where
  | invalid (h : isRequest m = false) :
    DispatchCase d m s (.ok (some (error (Obj.get m "id") invalidRequest "Invalid Request" none)))
  | params (hrequest : isRequest m = true) (h : paramsOf m = none) :
    DispatchCase d m s (.ok (some (error (Obj.get m "id") invalidParams "params must be an object" none)))
  | unhashable (h : Unhashable m) : DispatchCase d m s (.error .typeError)
  | unknown {params : Obj} (hrequest : isRequest m = true) (hparams : paramsOf m = some params)
    (hkey : (Obj.get m "method").key? ≠ none) (h : ∀ fn, ¬ Calls d m fn params) :
    DispatchCase d m s (.ok (d.unknownMethod (Obj.get m "id") (Obj.get m "method")))
  | called {params : Obj} {fn : Obj → Prog PyExc σ Json} (hrequest : isRequest m = true) (h : Calls d m fn params) :
    DispatchCase d m s (.ok (d.answer (Obj.get m "id") ((fn params).exec s).1))

/-- The key of a value is a string just for that string. -/
theorem key?_eq_str {v : Json} {name : String} (h : v.key? = some (.str name)) : v = .str name := by
  cases v with
  | float x => cases x <;> simp [Json.key?] at h
  | str s => simpa [Json.key?] using h
  | _ => simp [Json.key?] at h

/-- How an object is answered. -/
theorem dispatchObj_cases (d : Dispatcher σ) (m : Obj) (s : σ) :
    DispatchCase d m s ((d.dispatchObj m).exec s).1 := by
  unfold Dispatcher.dispatchObj
  by_cases hrequest : isRequest m = true
  · rw [if_pos hrequest]
    cases hparams : paramsOf m with
    | none => exact .params hrequest hparams
    | some params =>
      simp only [Dispatcher.invoke]
      cases hkey : (Obj.get m "method").key? with
      | none => exact .unhashable ⟨hrequest, by simp [hparams], hkey⟩
      | some k =>
        have hnone : ∀ {fn}, Calls d m fn params → ∃ name, k = .str name ∧ d.methods.lookup name = some fn := by
          rintro fn ⟨-, name, hmethod, hfn⟩
          rw [hmethod, Json.key?_str] at hkey
          exact ⟨name, (Option.some.inj hkey).symm, hfn⟩
        have hsome : (Obj.get m "method").key? ≠ none := by simp [hkey]
        cases k with
        | str name =>
          cases hfn : d.methods.lookup name with
          | none =>
            simp only [hfn]
            refine .unknown hrequest hparams hsome fun fn hcalls => ?_
            obtain ⟨name', hname, hfn'⟩ := hnone hcalls
            cases hname
            rw [hfn] at hfn'
            cases hfn'
          | some fn =>
            simp only [hfn]
            exact .called hrequest ⟨hparams, name, key?_eq_str hkey, hfn⟩
        | _ =>
          refine .unknown hrequest hparams hsome fun fn hcalls => ?_
          obtain ⟨name', hname, -⟩ := hnone hcalls
          cases hname
  · rw [if_neg hrequest]
    exact .invalid (by simpa using hrequest)

/-- `dispatch` returns, unless it has to look up something unhashable. -/
theorem dispatch_returns_iff (d : Dispatcher σ) (msg : Json) (s : σ) :
    (∃ out, ((d.dispatch msg).exec s).1 = .ok out) ↔ ∀ m, msg = .obj m → ¬ Unhashable m := by
  cases msg with
  | obj m =>
    have hcases := dispatchObj_cases d m s
    have hobj : (∀ m', Json.obj m = .obj m' → ¬ Unhashable m') ↔ ¬ Unhashable m := by
      constructor
      · exact fun h => h m rfl
      · rintro h m' heq
        cases heq
        exact h
    rw [Dispatcher.dispatch, hobj]
    generalize ((d.dispatchObj m).exec s).1 = out at hcases
    cases hcases with
    | invalid h => simp [Unhashable, h]
    | params hrequest h => simp [Unhashable, h]
    | unhashable h => simp [h]
    | unknown hrequest hparams hkey h => simp [Unhashable, hkey]
    | called hrequest h =>
      obtain ⟨-, name, hmethod, -⟩ := h
      simp [Unhashable, hmethod]
  | _ => simp [Dispatcher.dispatch]

end Answers

section Once

variable {d : Dispatcher σ} {m : Obj} {s : σ}

/-- What is answered to a message: nothing to a notification, else one object with its id. -/
def Answered (m : Obj) (out : Option Obj) : Prop :=
  (Notification m → out = none) ∧ (¬ Notification m → ∃ r, out = some r ∧ Obj.get r "id" = Obj.get m "id")

/-- The name of its method can be looked up, and if it is a notification its params are an object
and the method does not raise. -/
structure Answerable (d : Dispatcher σ) (s : σ) (m : Obj) : Prop where
  hashable : ¬ Unhashable m
  silent : Notification m → ∃ params, paramsOf m = some params ∧
    ∀ fn, Calls d m fn params → ∃ result, ((fn params).exec s).1 = .ok result

/-- A message with an id gets a response, and no other does. -/
theorem answered_some {r : Obj} (hid : Obj.get r "id" = Obj.get m "id") :
    Answered m (some r) ↔ ¬ Notification m := by
  constructor
  · intro h hnotification
    cases h.1 hnotification
  · intro h
    exact ⟨fun hnotification => absurd hnotification h, fun _ => ⟨r, rfl, hid⟩⟩

/-- A message without an id gets none. -/
theorem answered_none : Answered m none ↔ Notification m := by
  constructor
  · intro h
    by_contra hnot
    obtain ⟨r, hr, -⟩ := h.2 hnot
    cases hr
  · intro h
    exact ⟨fun _ => rfl, fun hnot => absurd h hnot⟩

/-- A message is answered as it should be just when it can be answered so. -/
theorem answered_iff_answerable (d : Dispatcher σ) (m : Obj) (s : σ) :
    (∃ out, ((d.dispatchObj m).exec s).1 = .ok out ∧ Answered m out) ↔ Answerable d s m := by
  have hcases := dispatchObj_cases d m s
  generalize ((d.dispatchObj m).exec s).1 = out at hcases
  cases hcases with
  | invalid h =>
    have hnot : ¬ Notification m := by simp [Notification, h]
    simp only [Except.ok.injEq, exists_eq_left', answered_some (get_id_error _ _ _ _)]
    exact ⟨fun _ => ⟨by simp [Unhashable, h], fun hn => absurd hn hnot⟩, fun _ => hnot⟩
  | params hrequest h =>
    simp only [Except.ok.injEq, exists_eq_left', answered_some (get_id_error _ _ _ _)]
    constructor
    · exact fun hnot => ⟨by simp [Unhashable, h], fun hn => absurd hn hnot⟩
    · intro hanswerable hn
      obtain ⟨params, hparams, -⟩ := hanswerable.silent hn
      rw [h] at hparams
      cases hparams
  | unhashable h =>
    simp only [reduceCtorEq, false_and, exists_false, false_iff]
    exact fun hanswerable => hanswerable.hashable h
  | @unknown params hrequest hparams hkey h =>
    have hanswerable : Answerable d s m :=
      ⟨by simp [Unhashable, hkey], fun _ => ⟨params, hparams, fun fn hcalls => absurd hcalls (h fn)⟩⟩
    simp only [Except.ok.injEq, exists_eq_left', hanswerable, iff_true, Dispatcher.unknownMethod]
    by_cases hid : isNone (Obj.get m "id") = true
    · rw [if_pos hid, answered_none]
      exact ⟨hrequest, hid⟩
    · rw [if_neg hid, answered_some (get_id_error _ _ _ _)]
      exact fun hn => hid hn.2
  | @called params fn hrequest h =>
    have hhashable : ¬ Unhashable m := by
      obtain ⟨-, name, hmethod, -⟩ := h
      simp [Unhashable, hmethod]
    simp only [Except.ok.injEq, exists_eq_left']
    have hsame : ∀ fn' params', Calls d m fn' params' → fn' = fn ∧ params' = params := by
      rintro fn' params' ⟨hparams', name', hmethod', hfn'⟩
      obtain ⟨hparams, name, hmethod, hfn⟩ := h
      rw [hmethod] at hmethod'
      cases hmethod'
      rw [hparams] at hparams'
      rw [hfn] at hfn'
      exact ⟨(Option.some.inj hfn').symm, (Option.some.inj hparams').symm⟩
    by_cases hid : isNone (Obj.get m "id") = true
    · have hn : Notification m := ⟨hrequest, hid⟩
      constructor
      · intro hanswered
        refine ⟨hhashable, fun _ => ⟨params, h.1, fun fn' hcalls => ?_⟩⟩
        obtain ⟨rfl, -⟩ := hsame fn' params hcalls
        have hnone := hanswered.1 hn
        cases hout : ((fn' params).exec s).1 with
        | ok result => exact ⟨result, rfl⟩
        | error e =>
          rw [hout] at hnone
          cases hnone
      · intro hanswerable
        obtain ⟨params', hparams', hreturns⟩ := hanswerable.silent hn
        have hcalls : Calls d m fn params' := ⟨hparams', h.2⟩
        obtain ⟨-, rfl⟩ := hsame fn params' hcalls
        obtain ⟨result, hresult⟩ := hreturns fn hcalls
        rw [hresult, Dispatcher.answer, if_pos hid]
        exact answered_none.mpr hn
    · have hnot : ¬ Notification m := fun hn => hid hn.2
      have hanswerable : Answerable d s m := ⟨hhashable, fun hn => absurd hn hnot⟩
      simp only [hanswerable, iff_true]
      cases ((fn params).exec s).1 with
      | ok result =>
        rw [Dispatcher.answer, if_neg hid]
        exact (answered_some (get_id_response _ _)).mpr hnot
      | error e => exact (answered_some (get_id_errorOf _ _)).mpr hnot

end Once

section ErrorAnswers

variable {d : Dispatcher σ} {m params : Obj} {fn : Obj → Prog PyExc σ Json} {s : σ} {ρ : Type}

/-- A request that calls a method is answered by what the method returns or raises. -/
theorem exec_dispatch_call (hrequest : isRequest m = true) (h : Calls d m fn params) :
    (d.dispatch (.obj m)).exec s =
      (.ok (d.answer (Obj.get m "id") ((fn params).exec s).1), ((fn params).exec s).2) := by
  obtain ⟨hparams, name, hmethod, hfn⟩ := h
  rw [Dispatcher.dispatch, Dispatcher.dispatchObj, if_pos hrequest, hparams]
  simp only [Dispatcher.invoke, hmethod, Json.key?_str, hfn, exec_call]

/-- Where the request is answered with an error, a part of the state is as before. -/
def ErrorLeaves (d : Dispatcher σ) (view : σ → ρ) (m : Obj) (s : σ) : Prop :=
  ∀ r, ((d.dispatch (.obj m)).exec s).1 = .ok (some r) → (r.lookup "error").isSome = true →
    view ((d.dispatch (.obj m)).exec s).2 = view s

/-- The answer to an exception has an error. -/
theorem lookup_error_errorOf (id : Json) (e : PyExc) : ((d.errorOf id e).lookup "error").isSome = true := by
  cases e <;> rfl

/-- A called method decides. -/
theorem errorLeaves_call (view : σ → ρ) (hrequest : isRequest m = true) (h : Calls d m fn params) :
    ErrorLeaves d view m s ↔ Prog.RaisesClean view (fn params) s := by
  unfold ErrorLeaves Prog.RaisesClean
  rw [exec_dispatch_call hrequest h]
  cases hout : ((fn params).exec s).1 with
  | ok result =>
    simp only [reduceCtorEq, false_implies, implies_true, iff_true, Dispatcher.answer]
    intro r hr herror
    by_cases hid : isNone (Obj.get m "id") = true
    · simp [hid] at hr
    · simp only [hid, Bool.false_eq_true, if_false, Except.ok.injEq, Option.some.injEq] at hr
      rw [← hr] at herror
      exact absurd herror (by simp [response, lookup_cons_eq_ite])
  | error e =>
    simp only [Dispatcher.answer, Except.ok.injEq, Option.some.injEq, forall_eq', lookup_error_errorOf, forall_const]
    exact ⟨fun h _ _ => h, fun h => h e rfl⟩

/-- A request without an object of params calls nothing. -/
theorem errorLeaves_of_params (view : σ → ρ) (hrequest : isRequest m = true) (h : paramsOf m = none) :
    ErrorLeaves d view m s := by
  intro r _ _
  simp [Dispatcher.dispatch, Dispatcher.dispatchObj, hrequest, h]

end ErrorAnswers

end VirtuosoFlow.Tunnel
