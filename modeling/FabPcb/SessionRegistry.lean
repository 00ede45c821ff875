import FabPcb.OrderedMap
import FabPcb.SessionState

/-!
The registry of sessions a bridge keeps by id.

`create` checks that its id is free, may await a file or a port, installs a new session and
starts it; `destroy` takes the entry out and stops the session; the reaper destroys, one after
the other, the sessions it found idle. Sessions are numbered as they are built, so that an entry
can be told from a later one of the same id.
-/

namespace FabPcb.SessionRegistry

open OrderedMap Runs SessionState

/-- `SESSION_ID_RE`. -/
def sessionIdRe (id : String) : Bool :=
  decide (1 ≤ id.length) && decide (id.length ≤ 64) &&
    id.toList.all fun c => c.isAlphanum || c == '_' || c == '-'

structure CreateSessionOptions where
  /-- `opts.id ?? randomId()`. -/
  id : String
  /-- `opts.backend ?? cfg.sessionBackend`, `none` for a name of no backend. -/
  backend : Option SessionBackend
  /-- The socket path is a `ws://` URL. -/
  websocket : Bool
  /-- A file to look for or a port to find comes before the session is built. -/
  awaits : Bool
  deriving DecidableEq, Repr

/-- The await a call of `create` is at. -/
inductive CreatePc
  | checked (backend : SessionBackend) (websocket : Bool)
  | starting (session : ℕ)
  | resolved (session : ℕ)
  | rejected
  deriving DecidableEq, Repr

structure CreateCall where
  id : String
  pc : CreatePc
  deriving DecidableEq, Repr

inductive DestroyPc | stopping | resolved | rejected
  deriving DecidableEq, Repr

/-- A call of `destroy` that found an entry: which session it was, the call of `stop` it awaits
and whether the session had been running. -/
structure DestroyCall where
  id : String
  session : ℕ
  call : ℕ
  ready : Bool
  pc : DestroyPc
  deriving DecidableEq, Repr

/-- A round of the reaper: the sessions still to look at, the ids reaped so far and the call of
`destroy` it awaits. -/
structure ReapCall where
  now : ℕ
  rest : List ℕ
  reaped : List String
  waiting : Option (String × ℕ)
  deriving DecidableEq, Repr

structure SessionLike extends Session where
  id : String
  deriving DecidableEq, Repr

structure SessionManager where
  sessions : OMap String ℕ
  /-- Every session ever built. -/
  built : List SessionLike
  creates : List CreateCall
  destroys : List DestroyCall
  reaps : List ReapCall

namespace SessionManager

def init : SessionManager := ⟨OMap.empty, [], [], [], []⟩

/-- The checks of `create` before its first await. -/
def admits (m : SessionManager) (opts : CreateSessionOptions) : Option SessionBackend :=
  if !sessionIdRe opts.id then none
  else if m.sessions.has opts.id then none
  else opts.backend

/-- The session is built, installed and started. -/
def install (m : SessionManager) (id : String) (backend : SessionBackend) (websocket spawns : Bool)
    (now : ℕ) : SessionManager :=
  { m with
    sessions := m.sessions.set id m.built.length
    built := m.built ++ [⟨(Session.new backend websocket now).begin spawns, id⟩] }

def create (m : SessionManager) (opts : CreateSessionOptions) (spawns : Bool) (now : ℕ) :
    SessionManager :=
  match m.admits opts with
  | none => { m with creates := m.creates ++ [⟨opts.id, .rejected⟩] }
  | some backend =>
    if opts.awaits then
      { m with creates := m.creates ++ [⟨opts.id, .checked backend opts.websocket⟩] }
    else
      { m.install opts.id backend opts.websocket spawns now with
        creates := m.creates ++ [⟨opts.id, .starting m.built.length⟩] }

/-- The await of a call of `create` is fulfilled. -/
def createFulfilled (m : SessionManager) (j : ℕ) (spawns : Bool) (now : ℕ) :
    Option SessionManager :=
  match m.creates[j]? with
  | some ⟨id, .checked backend websocket⟩ =>
    some { m.install id backend websocket spawns now with
      creates := m.creates.set j ⟨id, .starting m.built.length⟩ }
  | some ⟨id, .starting k⟩ =>
    if (m.built[k]?).any (·.start = .resolved) then
      some { m with creates := m.creates.set j ⟨id, .resolved k⟩ }
    else none
  | _ => none

/-- The await of a call of `create` throws: no such file, no port, or the start failed. -/
def createRejected (m : SessionManager) (j : ℕ) : Option SessionManager :=
  match m.creates[j]? with
  | some ⟨id, .checked _ _⟩ => some { m with creates := m.creates.set j ⟨id, .rejected⟩ }
  | some ⟨id, .starting k⟩ =>
    if (m.built[k]?).any (·.start = .rejected) then
      some { m with
        sessions := m.sessions.delete id, creates := m.creates.set j ⟨id, .rejected⟩ }
    else none
  | _ => none

/-- `destroy(id)` up to its await. -/
def destroy (m : SessionManager) (id : String) : SessionManager :=
  match m.sessions.get? id with
  | none => m
  | some k =>
    match m.built[k]? with
    | none => m
    | some s =>
      { m with
        sessions := m.sessions.delete id
        built := m.built.set k { s with toSession := s.stop }
        destroys := m.destroys ++ [⟨id, k, s.stops.length, s.ready, .stopping⟩] }

/-- The `stop` a call of `destroy` awaits has ended. -/
def destroySettled (m : SessionManager) (d : ℕ) : Option SessionManager :=
  match m.destroys[d]? with
  | some c =>
    if c.pc = .stopping then
      match (m.built[c.session]?).bind (·.stops[c.call]?) with
      | some .resolved => some { m with destroys := m.destroys.set d { c with pc := .resolved } }
      | some .rejected => some { m with destroys := m.destroys.set d { c with pc := .rejected } }
      | _ => none
    else none
  | none => none

def destroyAll (m : SessionManager) : SessionManager :=
  m.sessions.keys.foldl destroy m

/-- `reapIdle(now)`: the sessions there are when a round begins. -/
def reapIdle (m : SessionManager) (now : ℕ) : SessionManager :=
  { m with reaps := m.reaps ++ [⟨now, m.sessions.values, [], none⟩] }

/-- Whether a round passes a session over; `limit` is the idle time allowed, in ms. -/
def spares (limit now : ℕ) (s : SessionLike) : Bool :=
  s.state = .starting || !s.idle || decide (now < s.lastClientAt + limit)

/-- The next session of a round is looked at. -/
def reapNext (m : SessionManager) (limit j : ℕ) (c : ReapCall) : Option SessionManager :=
  match c.rest with
  | [] => none
  | k :: rest =>
    match m.built[k]? with
    | none => none
    | some s =>
      if spares limit c.now s then
        some { m with reaps := m.reaps.set j { c with rest := rest } }
      else if m.sessions.has s.id then
        some { m.destroy s.id with
          reaps := m.reaps.set j
            { c with rest := rest, waiting := some (s.id, m.destroys.length) } }
      else
        some { m with reaps := m.reaps.set j { c with rest := rest, reaped := c.reaped ++ [s.id] } }

/-- A round of the reaper goes on. -/
def reapStep (m : SessionManager) (limit j : ℕ) : Option SessionManager :=
  match m.reaps[j]? with
  | none => none
  | some c =>
    match c.waiting with
    | none => m.reapNext limit j c
    | some (id, d) =>
      match (m.destroys[d]?).map DestroyCall.pc with
      | some .resolved =>
        some { m with
          reaps := m.reaps.set j { c with reaped := c.reaped ++ [id], waiting := none } }
      -- the round ends with what `destroy` threw
      | some .rejected =>
        some { m with reaps := m.reaps.set j { c with rest := [], waiting := none } }
      | _ => none

/-- Something happens in a session. -/
def session (m : SessionManager) (k : ℕ) (e : Event) : Option SessionManager :=
  match m.built[k]? with
  | none => none
  | some s => (s.event e).map fun t =>
      { m with built := m.built.set k { s with toSession := t } }

end SessionManager

inductive Action
  | create (opts : CreateSessionOptions) (spawns : Bool) (now : ℕ)
  | createFulfilled (j : ℕ) (spawns : Bool) (now : ℕ)
  | createRejected (j : ℕ)
  | destroy (id : String)
  | destroySettled (d : ℕ)
  | destroyAll
  | reapIdle (now : ℕ)
  | reapStep (j : ℕ)
  | session (k : ℕ) (e : Event)
  deriving DecidableEq, Repr

/-- `limit` is `sessionIdleTimeoutSec` in milliseconds; at zero nothing is reaped. -/
def step (limit : ℕ) (m : SessionManager) : Action → Option SessionManager
  | .create opts spawns now => some (m.create opts spawns now)
  | .createFulfilled j spawns now => m.createFulfilled j spawns now
  | .createRejected j => m.createRejected j
  | .destroy id => some (m.destroy id)
  | .destroySettled d => m.destroySettled d
  | .destroyAll => some m.destroyAll
  | .reapIdle now => if limit = 0 then none else some (m.reapIdle now)
  | .reapStep j => m.reapStep limit j
  | .session k e => m.session k e

end FabPcb.SessionRegistry
