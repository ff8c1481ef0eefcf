import AlphaPipeline.CRuntime

/-!
# The HTTP client

`http_client.c` over the parts of libcurl it relies on: a multi handle that easy handles are
added to and removed from, and that reports an added handle as done. Each request is one
allocation and owns one easy handle, so both go by one number. What libcurl and the network
do during a call is given with the call, and so is what the owner does in `complete_fn`.
Touching a request after it was freed is undefined and recorded as a fault.
-/
namespace AlphaPipeline.Http

/-- `SIZE_MAX + 1`. -/
def sizeModulus : Nat := 18446744073709551616

/-- `size_t` subtraction. -/
def sizeSub (a b : Nat) : Nat := (a + (sizeModulus - b % sizeModulus)) % sizeModulus

/-- `ALPHA_HTTP_MAX_PENDING`. -/
def maxPending : Nat := 64

/-- `ALPHA_HTTP_MAX_RESPONSE_BYTES`. -/
def maxResponseBytes : Nat := 1024 * 1024

/-- `alpha_http_post_t`; `none` is a null pointer. -/
structure Post where
  kind : Int
  url : Option Text
  jsonBody : Option Text
  authorizationHeader : Option Text
  timeoutMs : Int
  userData : Option Nat
  deriving DecidableEq, Repr

/-- `alpha_http_request_t`, without its handle, headers and body, which libcurl reads. -/
structure Request where
  kind : Int
  userData : Option Nat
  response : Option Text
  responseSize : Nat
  deriving DecidableEq, Repr

/-- `alpha_http_result_t`. -/
structure HttpResult where
  kind : Int
  statusCode : Int
  transportCode : Int
  responseBody : Text
  responseSize : Nat
  userData : Option Nat
  deriving DecidableEq, Repr

/-- `struct alpha_http_multi`: the list of requests, newest first, and their count. -/
structure Client where
  requests : List Nat
  pending : Nat
  deriving DecidableEq, Repr

/-- What happens that the owner or libcurl can see. A refused post comes with the request
allocated for it, if any, and the client before it; a cancel with the request it finds. -/
inductive Effect where
  | accepted (id : Nat) (kind : Int) (userData : Option Nat)
  | rejected (status : AlphaErr) (id : Option Nat) (before : Client)
  | reported (id : Nat)
  | cancel (userData : Nat) (target : Option Nat)
  | completed (id : Nat) (result : HttpResult)
  | freed (id : Nat)
  | watchFn (socket : Int) (watch : Int)
  | timerFn (timeoutMs : Int)
  | acted (socket : Int) (events : Nat)
  deriving DecidableEq, Repr

/-- An entry of the log, with the client as it is then and the requests whose completion is
being delivered, innermost first. -/
structure Entry where
  effect : Effect
  client : Client
  delivering : List Nat
  deriving DecidableEq, Repr

structure World where
  client : Client
  heap : Nat → Option Request
  fresh : Nat
  attached : List Nat
  delivering : List Nat
  log : List Entry
  fault : Bool

def World.emit (w : World) (effect : Effect) : World :=
  { w with log := w.log ++ [⟨effect, w.client, w.delivering⟩] }

/-! ### libcurl's callbacks -/

/-- `receive_body` on `size * count` bytes; `reallocated` says whether `realloc` succeeds. -/
def receiveBody (request : Request) (data : Text) (size count : Nat) (reallocated : Bool) :
    Nat × Request :=
  let bytes := size * count % sizeModulus
  if bytes > sizeSub maxResponseBytes request.responseSize ||
      bytes > sizeSub (sizeSub (sizeModulus - 1) request.responseSize) 1 then (0, request)
  else if !reallocated then (0, request)
  else
    let kept := (request.response.getD []).take request.responseSize
    (bytes, { request with
      response := some (kept ++ data.take bytes ++ [Char.ofNat 0])
      responseSize := (request.responseSize + bytes) % sizeModulus })

/-- `curl_socket_changed`, on the values of `CURL_POLL_IN` to `CURL_POLL_INOUT`. -/
def curlSocketChanged (w : World) (socket action : Int) : World :=
  w.emit (.watchFn socket (if 1 ≤ action ∧ action ≤ 3 then action else 0))

/-- `curl_timer_changed`. -/
def curlTimerChanged (w : World) (timeoutMs : Int) : World := w.emit (.timerFn timeoutMs)

/-- What libcurl can do while it handles an event. -/
inductive Activity where
  | socket (socket action : Int)
  | timer (timeoutMs : Int)
  | received (id : Nat) (data : Text) (size count : Nat) (reallocated : Bool)
  deriving DecidableEq, Repr

/-- One activity; libcurl receives data for the handles it has. -/
def World.act (w : World) : Activity → World
  | .socket socket action => curlSocketChanged w socket action
  | .timer timeoutMs => curlTimerChanged w timeoutMs
  | .received id data size count reallocated =>
    match w.heap id with
    | some request =>
      let received := (receiveBody request data size count reallocated).2
      if id ∈ w.attached then { w with heap := Function.update w.heap id (some received) } else w
    | none => w

/-! ### Requests -/

/-- `unlink_and_free`. -/
def unlinkAndFree (w : World) (id : Nat) : World :=
  if w.fault then w
  else
    match w.heap id with
    | none => { w with fault := true }
    | some _ =>
      let client :=
        if id ∈ w.client.requests then
          ⟨w.client.requests.erase id, sizeSub w.client.pending 1⟩
        else w.client
      { w with client, heap := Function.update w.heap id none }.emit (.freed id)

/-- The options a request sets, in order. -/
inductive CurlOption where
  | url
  | post
  | postFields
  | postFieldSize
  | httpHeader
  | writeFunction
  | writeData
  | privateData
  | timeoutMs
  | noSignal
  deriving DecidableEq, Repr

def curlOptions : List CurlOption :=
  [.url, .post, .postFields, .postFieldSize, .httpHeader, .writeFunction, .writeData, .privateData,
    .timeoutMs, .noSignal]

/-- Which of the calls that set a request up succeed: the allocations, the two headers, each
option, and `curl_multi_add_handle`. -/
structure Setup where
  request : Bool
  easy : Bool
  body : Bool
  contentType : Bool
  authorization : Bool
  option : CurlOption → Bool
  added : Bool

/-- The arguments `alpha_http_post_json` takes. -/
def Post.valid (post : Post) : Bool :=
  (match post.url with
    | some url => !(cString url).isEmpty
    | none => false) &&
  post.jsonBody.isSome && decide (0 < post.timeoutMs) && decide (0 ≤ post.kind) &&
  decide (post.kind ≤ 2)

/-- A new request, not linked yet. -/
def World.create (w : World) (post : Post) : World :=
  { w with
    heap := Function.update w.heap w.fresh (some ⟨post.kind, post.userData, none, 0⟩)
    fresh := w.fresh + 1 }

/-- The request becomes the first one of the list. -/
def World.link (w : World) (id : Nat) : World :=
  { w with client := ⟨id :: w.client.requests, w.client.pending + 1⟩ }

/-- What the first failing call between the allocation and the linking makes of a post. -/
def Setup.failure (setup : Setup) (post : Post) : Option AlphaErr :=
  if !setup.easy || !setup.body then some .io
  else if !setup.contentType then some .io
  else if post.authorizationHeader.isSome && !setup.authorization then some .io
  else if curlOptions.any fun option => !setup.option option then some .http
  else none

/-- `alpha_http_post_json`. Every failure after the allocation ends in `unlink_and_free`, before
the request is linked and, for the last one, after. -/
def alphaHttpPostJson (w : World) (post : Option Post) (setup : Setup) : AlphaErr × World :=
  match post with
  | none => (.invalidArg, w)
  | some post =>
    if !post.valid then (.invalidArg, w)
    else if w.client.pending ≥ maxPending then (.range, w)
    else if !setup.request then (.io, w)
    else
      let created := w.create post
      match setup.failure post with
      | some status => (status, unlinkAndFree created w.fresh)
      | none =>
        let linked := created.link w.fresh
        if !setup.added then (.http, unlinkAndFree linked w.fresh)
        else (.ok, { linked with attached := w.fresh :: linked.attached })

/-- A post of the owner, with what the owner learns of it. -/
def World.post (w : World) (post : Option Post) (setup : Setup) : World :=
  match post, alphaHttpPostJson w post setup with
  | some given, (.ok, after) => after.emit (.accepted w.fresh given.kind given.userData)
  | _, (status, after) =>
    after.emit (.rejected status (if after.fresh = w.fresh then none else some w.fresh) w.client)

/-! ### Completions -/

/-- `curl_multi_remove_handle`. -/
def World.detach (w : World) (id : Nat) : World := { w with attached := w.attached.erase id }

/-- The completion of a request: `complete_fn`, in which the owner does what `react` says, and
`unlink_and_free` after it. -/
def complete (w : World) (id : Nat) (status transport : Int) (react : World → World) : World :=
  match w.heap id with
  | none => { w with fault := true }
  | some request =>
    let result : HttpResult :=
      ⟨request.kind, status, transport, request.response.getD [], request.responseSize,
        request.userData⟩
    let told := { w with delivering := id :: w.delivering }.emit (.completed id result)
    { unlinkAndFree (react told) id with delivering := w.delivering }

/-- The request `alpha_http_cancel` finds. -/
def World.find (w : World) (userData : Nat) : Option Nat :=
  w.client.requests.find? fun id =>
    ((w.heap id).map fun request => decide (request.userData = some userData)).getD false

/-- `CURLE_ABORTED_BY_CALLBACK`. -/
def abortedByCallback : Int := 42

/-- `alpha_http_cancel`. -/
def alphaHttpCancel (w : World) (userData : Option Nat) (react : World → World) :
    AlphaErr × World :=
  match userData with
  | none => (.invalidArg, w)
  | some userData =>
    let searched := w.emit (.cancel userData (w.find userData))
    match w.find userData with
    | none => (.range, searched)
    | some id => (.ok, complete (searched.detach id) id 0 abortedByCallback react)

/-- What the owner does from inside `complete_fn`; a cancel runs `complete_fn` again. -/
inductive Op where
  | post (post : Option Post) (setup : Setup)
  | cancel (userData : Option Nat) (reaction : List Op)

mutual

def Op.perform : Op → World → World
  | .post post setup, w => if w.fault then w else w.post post setup
  | .cancel userData reaction, w =>
    if w.fault then w else (alphaHttpCancel w userData (performAll reaction)).2

def performAll : List Op → World → World
  | [], w => w
  | op :: rest, w => performAll rest (op.perform w)

end

/-- What `curl_multi_info_read` returns, and what the owner does on the completion. -/
inductive Message where
  | other
  | done (handle : Nat) (status transport : Int) (reaction : List Op)

/-- `drain_completions`; libcurl reports the handles it has. -/
def drainCompletions : List Message → World → World
  | [], w => w
  | .other :: rest, w => drainCompletions rest w
  | .done handle status transport reaction :: rest, w =>
    if w.fault then w
    else if handle ∈ w.attached then
      let removed := (w.emit (.reported handle)).detach handle
      drainCompletions rest (complete removed handle status transport (performAll reaction))
    else drainCompletions rest w

/-! ### Actions -/

/-- What the event loop and the network do in a call that drives libcurl. -/
structure Drive where
  activities : List Activity
  succeeds : Bool
  messages : List Message

/-- `curl_multi_socket_action` and, if it succeeds, `drain_completions`. -/
def drive (w : World) (socket : Int) (events : Nat) (given : Drive) : AlphaErr × World :=
  let acted := given.activities.foldl World.act (w.emit (.acted socket events))
  if !given.succeeds then (.http, acted) else (.ok, drainCompletions given.messages acted)

/-- `alpha_http_multi_socket_action`; `runningOut` says that there is an output argument. -/
def alphaHttpMultiSocketAction (w : World) (socket watch : Int) (runningOut : Bool)
    (given : Drive) : AlphaErr × World :=
  let ready := (u32 watch).toNat
  if socket < 0 || !runningOut || ready / 4 != 0 then (.invalidArg, w)
  else drive w socket (ready % 2 + 2 * (ready / 2 % 2)) given

/-- `alpha_http_multi_timeout_action`, with `CURL_SOCKET_TIMEOUT` for the socket. -/
def alphaHttpMultiTimeoutAction (w : World) (runningOut : Bool) (given : Drive) :
    AlphaErr × World :=
  if !runningOut then (.invalidArg, w) else drive w (-1) 0 given

/-- The client after a successful `alpha_http_multi_create`. -/
def World.created : World := ⟨⟨[], 0⟩, fun _ => none, 0, [], [], [], false⟩

/-- A call of the owner from outside any callback. -/
inductive Call where
  | op (op : Op)
  | socketAction (socket watch : Int) (runningOut : Bool) (given : Drive)
  | timeoutAction (runningOut : Bool) (given : Drive)

/-- One call; after a fault nothing is known any more. -/
def World.step (w : World) (call : Call) : World :=
  if w.fault then w
  else
    match call with
    | .op op => op.perform w
    | .socketAction socket watch runningOut given =>
      (alphaHttpMultiSocketAction w socket watch runningOut given).2
    | .timeoutAction runningOut given => (alphaHttpMultiTimeoutAction w runningOut given).2

end AlphaPipeline.Http
