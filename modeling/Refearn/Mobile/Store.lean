import Refearn.Mobile.Session
import Refearn.Support.Runs
/-!
# The session store of the mobile app

`mobile/src/lib/auth.ts` and `api.ts`. The operations on the store run one after another in
the session queue. A call of one of them raises the generation at once, so an operation that
has awaited the storage looks at the generation again. One refresh is under way at a time; it
runs beside the queue and waits for the operations it has called.

Only the operation that is running touches the store, and the others see of it only the
generation: an operation that does not read the generation again is one step. A refresh that
has to wait for another one is called again afterwards, and so is a merge of another caller
that is told to retry. A write that fails leaves the durable copy as it was.
-/

namespace Refearn.Mobile

open Web (Session)

/-! ## The store and its operations -/

/-- What `AsyncStorage` holds under `KEY`. -/
inductive Durable
  | absent
  | corrupt
  | session (session : Session)
  deriving DecidableEq

structure SessionSnapshot where
  session : Option Session
  generation : Nat
  deriving DecidableEq

/-- Which calls of `AsyncStorage` succeed. -/
structure StorageOutcome where
  getItem : Bool
  setItem : Bool
  removeItem : Bool
  deriving DecidableEq

structure Store where
  durable : Durable
  cached : Option Session
  cacheInitialized : Bool
  generation : Nat
  tokenAdvancement : Option TokenAdvancement

def Store.forget (store : Store) : Store :=
  { store with cached := none, cacheInitialized := true, tokenAdvancement := none }

def Store.removeItem (store : Store) (io : StorageOutcome) : Store :=
  if io.removeItem then { store with durable := .absent } else store

def loadSessionWithinQueue (io : StorageOutcome) (store : Store) : Store :=
  if store.cacheInitialized then store
  else if !io.getItem then { store with cached := none, tokenAdvancement := none }
  else
    match store.durable with
    | .absent => { store with cached := none, cacheInitialized := true }
    | .corrupt => store.forget.removeItem io
    | .session candidate =>
        if isSession candidate then
          { store with cached := some candidate, cacheInitialized := true }
        else store.forget.removeItem io

/-- The operation that `saveSession` queues. -/
def saveSessionWithinQueue (read : ReadLineage) (io : StorageOutcome) (session : Session)
    (store : Store) : Store :=
  let resolved := resolveQueuedSessionSave read store.tokenAdvancement session
  if io.setItem then
    { store with
      durable := .session resolved.1
      cached := some resolved.1
      cacheInitialized := true
      tokenAdvancement := resolved.2 }
  else store.forget.removeItem io

/-- The operation that `clearSession` queues. -/
def clearSessionWithinQueue (io : StorageOutcome) (store : Store) : Store :=
  store.forget.removeItem io

/-- The calls that change the store only if it is still what the caller has seen. -/
inductive Call
  | saveSessionIfCurrent (expected : SessionSnapshot) (next : Session)
  | clearSessionIfCurrent (expected : SessionSnapshot)
  | mergeSessionTokens (owner : Session) (tokens : TokenPair)
  deriving DecidableEq

inductive TokenMergeAttempt
  | merged (generation : Nat)
  | retry
  | stopped
  deriving DecidableEq

inductive Outcome
  | saved
  | unsaved
  | cleared
  | merge (attempt : TokenMergeAttempt)
  deriving DecidableEq

/-- What the running operation awaits. -/
inductive Await
  | saving (expected : SessionSnapshot) (next : Session)
  /-- The write of `saveSessionIfCurrent` has failed: the durable copy is removed. -/
  | discarding
  | clearing
  | merging (owner merged : Session)

inductive Progress
  | ended (outcome : Outcome)
  | awaits (await : Await) (generation : Nat)

/-- The operation of a call until it awaits the storage. -/
def beginCall (read : ReadLineage) (io : StorageOutcome) (call : Call) (generation : Nat)
    (store : Store) : Store × Progress :=
  let store := loadSessionWithinQueue io store
  match call with
  | .saveSessionIfCurrent expected next =>
      if store.generation = generation && sameSessionSnapshot expected.session store.cached then
        (store, .awaits (.saving expected next) generation)
      else (store, .ended .unsaved)
  | .clearSessionIfCurrent expected =>
      if store.generation = generation && sameSessionSnapshot expected.session store.cached then
        (store, .awaits .clearing generation)
      else (store, .ended .cleared)
  | .mergeSessionTokens owner tokens =>
      if store.generation ≠ generation then (store, .ended (.merge .retry))
      else
        match store.cached with
        | none => (store, .ended (.merge .stopped))
        | some current =>
            if !sameSessionIdentity owner current then (store, .ended (.merge .stopped))
            else if hasTokenPair (tokenPairOf current) tokens then
              ({ store with
                tokenAdvancement :=
                  registerTokenAdvancement read store.tokenAdvancement (some owner) current },
                .ended (.merge (.merged generation)))
            else if !hasTokenPair (tokenPairOf current) (tokenPairOf owner) then
              (store, .ended (.merge .stopped))
            else
              ({ store with generation := store.generation + 1 },
                .awaits (.merging owner (withTokens current tokens)) (store.generation + 1))

/-- The operation goes on when the storage has answered. -/
def settleCall (read : ReadLineage) (io : StorageOutcome) (await : Await) (generation : Nat)
    (store : Store) : Store × Progress :=
  match await with
  | .saving expected next =>
      if io.setItem then
        let store := { store with
          durable := .session next
          tokenAdvancement :=
            registerTokenAdvancement read store.tokenAdvancement expected.session next }
        if store.generation = generation then
          ({ store with cached := some next, cacheInitialized := true }, .ended .saved)
        else (store, .ended .unsaved)
      else if store.generation = generation then (store, .awaits .discarding generation)
      else (store, .ended .unsaved)
  | .discarding =>
      if io.removeItem then
        let store := store.removeItem io
        (if store.generation = generation then store.forget else store, .ended .unsaved)
      else (store, .ended .unsaved)
  | .clearing =>
      let store := store.removeItem io
      (if store.generation = generation then store.forget else store, .ended .cleared)
  | .merging owner merged =>
      if io.setItem then
        let store := { store with
          durable := .session merged
          tokenAdvancement :=
            registerTokenAdvancement read store.tokenAdvancement (some owner) merged }
        if store.generation = generation then
          ({ store with cached := some merged, cacheInitialized := true },
            .ended (.merge (.merged generation)))
        else (store, .ended (.merge .retry))
      else
        (store, .ended (.merge (if store.generation = generation then .stopped else .retry)))

/-! ## A refresh -/

/-- Where `performRefresh` is. -/
inductive Phase
  /-- It waits for the session that is stored. -/
  | loading
  | loaded (snapshot : SessionSnapshot)
  | current
  | sent
  | answered (next : Option Session)
  | saving (next : Session)
  | unsaved (tokens : TokenPair)
  | merging (tokens : TokenPair)
  | attempted (tokens : TokenPair) (attempt : TokenMergeAttempt)
  | clearing
  | done
  deriving DecidableEq

structure RefreshFlight where
  owner : Session
  generation : Nat
  phase : Phase
  deriving DecidableEq

/-- The call that the refresh waits for. -/
def RefreshFlight.call (flight : RefreshFlight) : Option Call :=
  match flight.phase with
  | .saving next =>
      some (.saveSessionIfCurrent ⟨some flight.owner, flight.generation⟩ next)
  | .merging tokens => some (.mergeSessionTokens flight.owner tokens)
  | .clearing => some (.clearSessionIfCurrent ⟨some flight.owner, flight.generation⟩)
  | .loading | .loaded _ | .current | .sent | .answered _ | .unsaved _ | .attempted _ _
  | .done => none

def RefreshFlight.receive (flight : RefreshFlight) (outcome : Outcome) : RefreshFlight :=
  match flight.phase, outcome with
  | .saving _, .saved => { flight with phase := .done }
  | .saving next, .unsaved => { flight with phase := .unsaved (tokenPairOf next) }
  | .merging tokens, .merge attempt => { flight with phase := .attempted tokens attempt }
  | .clearing, .cleared => { flight with phase := .done }
  | _, _ => flight

/-- `sameAuthenticatedSnapshot` of the owner of a refresh and a snapshot. -/
def sameAuthenticatedSnapshot (flight : RefreshFlight) (current : SessionSnapshot) : Bool :=
  match current.session with
  | none => false
  | some session =>
      isSession session && flight.generation = current.generation && flight.owner = session &&
        sameSessionIdentity flight.owner session

/-- The answer to a refresh, if the app takes it. -/
def acceptedCandidate (owner : Session) (body : Option Session) : Option Session :=
  body.filter fun candidate => isSession candidate && sameSessionIdentity owner candidate

/-! ## The app and the server -/

inductive Operation
  | loadSession
  | saveSession (session : Session)
  | clearSession
  | call (call : Call) (generation : Nat)
  /-- The operation that the refresh under way waits for. -/
  | ofRefresh (generation : Nat)

structure Running where
  await : Await
  generation : Nat
  ofRefresh : Bool

/-- The server has answered a refresh of `spent` with `next`. -/
structure Rotation where
  spent : TokenPair
  next : TokenPair
  deriving DecidableEq

/-- `issued` lists the pairs that the server has handed out and `answered` the refreshes that
it has answered, the newest first. `resent` collects the refresh tokens that were sent when
they had been spent. -/
structure World where
  store : Store
  sessionQueue : List Operation
  running : Option Running
  refreshInFlight : Option RefreshFlight
  issued : List TokenPair
  answered : List Rotation
  resent : List String

/-- The app has just been started. -/
structure World.Initial (w : World) : Prop where
  cached : w.store.cached = none
  cacheInitialized : w.store.cacheInitialized = false
  tokenAdvancement : w.store.tokenAdvancement = none
  running : w.running = none
  refreshInFlight : w.refreshInFlight = none
  answered : w.answered = []
  resent : w.resent = []

def World.spentTokens (w : World) : List String := w.answered.map (·.spent.refreshToken)

/-- The server hands out a refresh token once. -/
def World.isFresh (w : World) (tokens : TokenPair) : Bool :=
  tokens.refreshToken ∉ w.issued.map (·.refreshToken) && tokens.refreshToken ∉ w.spentTokens

inductive ServerAnswer
  /-- The token is not accepted or the request gets lost. -/
  | refused
  /-- The token is spent and `tokens` are issued; `body` is what reaches the app. -/
  | refreshed (tokens : TokenPair) (body : Option Session)
  deriving DecidableEq

inductive Action
  /-- The server issues tokens otherwise, at a login or an accepted invite. -/
  | issue (tokens : TokenPair)
  | loadSession
  | saveSession (session : Session)
  | clearSession
  | call (call : Call)
  | refresh (owner : Session) (generation : Nat)
  /-- The next operation of the queue begins. -/
  | begin (io : StorageOutcome)
  /-- The running operation goes on. -/
  | settle (io : StorageOutcome)
  | answer (answer : ServerAnswer)
  /-- The refresh under way goes on. -/
  | resume

def World.enqueue (w : World) (operation : Operation) : World :=
  { w with sessionQueue := w.sessionQueue ++ [operation] }

/-- A call that changes the store raises the generation. -/
def World.advance (w : World) : World :=
  { w with store := { w.store with generation := w.store.generation + 1 } }

def World.withPhase (w : World) (flight : RefreshFlight) (phase : Phase) : World :=
  { w with refreshInFlight := some { flight with phase := phase } }

/-- A call by others than the refresh under way. -/
def enqueueCall (w : World) (call : Call) : World :=
  match call with
  | .saveSessionIfCurrent expected next =>
      if isSession next && w.store.generation = expected.generation then
        w.advance.enqueue (.call call (w.store.generation + 1))
      else w
  | .clearSessionIfCurrent expected =>
      if w.store.generation = expected.generation then
        w.advance.enqueue (.call call (w.store.generation + 1))
      else w
  | .mergeSessionTokens _ _ => w.enqueue (.call call w.store.generation)

/-- The operation of a call has come to an end or awaits the storage. -/
def World.proceed (w : World) (ofRefresh : Bool) (result : Store × Progress) : World :=
  match result.2 with
  | .awaits await generation =>
      { w with store := result.1, running := some ⟨await, generation, ofRefresh⟩ }
  | .ended outcome =>
      { w with
        store := result.1
        running := none
        refreshInFlight :=
          if ofRefresh then w.refreshInFlight.map (·.receive outcome) else w.refreshInFlight }

/-- The operation of a refresh under way begins. -/
def beginOfRefresh (read : ReadLineage) (io : StorageOutcome) (generation : Nat) (w : World) :
    World :=
  match w.refreshInFlight with
  | none => w
  | some flight =>
      match flight.phase, flight.call with
      | .loading, _ =>
          let store := loadSessionWithinQueue io w.store
          { w with store := store }.withPhase flight (.loaded ⟨store.cached, generation⟩)
      | _, some call => w.proceed true (beginCall read io call generation w.store)
      | _, none => w

def beginOperation (read : ReadLineage) (io : StorageOutcome) (operation : Operation) (w : World) :
    World :=
  match operation with
  | .loadSession => { w with store := loadSessionWithinQueue io w.store }
  | .saveSession session => { w with store := saveSessionWithinQueue read io session w.store }
  | .clearSession => { w with store := clearSessionWithinQueue io w.store }
  | .call call generation => w.proceed false (beginCall read io call generation w.store)
  | .ofRefresh generation => beginOfRefresh read io generation w

def begin (read : ReadLineage) (io : StorageOutcome) (w : World) : World :=
  match w.running, w.sessionQueue with
  | none, operation :: rest => beginOperation read io operation { w with sessionQueue := rest }
  | _, _ => w

def settle (read : ReadLineage) (io : StorageOutcome) (w : World) : World :=
  match w.running with
  | none => w
  | some running =>
      w.proceed running.ofRefresh
        (settleCall read io running.await running.generation w.store)

/-- `refresh` when none is under way: `performRefresh` first loads the session. -/
def refresh (owner : Session) (generation : Nat) (w : World) : World :=
  match w.refreshInFlight with
  | some _ => w
  | none =>
      { w with refreshInFlight := some ⟨owner, generation, .loading⟩ }.enqueue
        (.ofRefresh w.store.generation)

/-- The server answers the token that has been sent; it accepts a token once. -/
def serve (answer : ServerAnswer) (w : World) : World :=
  match w.refreshInFlight with
  | none => w
  | some flight =>
      match flight.phase, answer with
      | .sent, .refreshed tokens body =>
          if flight.owner.refreshToken ∉ w.spentTokens ∧ w.isFresh tokens ∧
              tokens.refreshToken ≠ flight.owner.refreshToken ∧
                body.all (fun session => tokenPairOf session = tokens) then
            { w with
              answered := ⟨tokenPairOf flight.owner, tokens⟩ :: w.answered
              issued := tokens :: w.issued }.withPhase flight
                (.answered (acceptedCandidate flight.owner body))
          else w.withPhase flight (.answered none)
      | .sent, .refused => w.withPhase flight (.answered none)
      | _, _ => w

/-- Post the refresh token. -/
def World.send (w : World) (token : String) : World :=
  if token ∈ w.spentTokens then { w with resent := token :: w.resent } else w

/-- `mergeSessionTokensAttempt` of the refresh under way. -/
def attemptMerge (flight : RefreshFlight) (tokens : TokenPair) (w : World) : World :=
  (w.withPhase flight (.merging tokens)).enqueue (.ofRefresh w.store.generation)

def resumeFlight (flight : RefreshFlight) (w : World) : World :=
  match flight.phase with
  | .loaded snapshot =>
      if w.store.generation = snapshot.generation then
        if sameAuthenticatedSnapshot flight snapshot then w.withPhase flight .current
        else w.withPhase flight .done
      else (w.withPhase flight .loading).enqueue (.ofRefresh w.store.generation)
  | .current => (w.send flight.owner.refreshToken).withPhase flight .sent
  | .answered none =>
      if w.store.generation = flight.generation then
        (w.advance.withPhase flight .clearing).enqueue (.ofRefresh (w.store.generation + 1))
      else w.withPhase flight .done
  | .answered (some next) =>
      if w.store.generation = flight.generation then
        (w.advance.withPhase flight (.saving next)).enqueue (.ofRefresh (w.store.generation + 1))
      else w.withPhase flight (.unsaved (tokenPairOf next))
  | .unsaved tokens => attemptMerge flight tokens w
  | .attempted tokens .retry => attemptMerge flight tokens w
  | .attempted tokens (.merged generation) =>
      if w.store.generation = generation then w.withPhase flight .done
      else attemptMerge flight tokens w
  | .attempted _ .stopped => w.withPhase flight .done
  | .done => { w with refreshInFlight := none }
  | .loading | .sent | .saving _ | .merging _ | .clearing => w

def resume (w : World) : World :=
  match w.refreshInFlight with
  | none => w
  | some flight => resumeFlight flight w

def step (read : ReadLineage) (action : Action) (w : World) : World :=
  match action with
  | .issue tokens => if w.isFresh tokens then { w with issued := tokens :: w.issued } else w
  | .loadSession => w.enqueue .loadSession
  | .saveSession session => if isSession session then w.advance.enqueue (.saveSession session) else w
  | .clearSession => w.advance.enqueue .clearSession
  | .call call => enqueueCall w call
  | .refresh owner generation => refresh owner generation w
  | .begin io => begin read io w
  | .settle io => settle read io w
  | .answer answer => serve answer w
  | .resume => resume w

end Refearn.Mobile
