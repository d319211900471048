import Refearn.Web.Session
import Refearn.Support.Runs
/-!
# Refreshing the session from several tabs

`web/src/lib/api.ts`. A request that is answered 401 refreshes the session it was sent with.
One refresh is under way in a tab at a time, and one in the browser sends its token: the
holder of the Web Lock. The server answers a refresh with a new token and remembers the
old one as spent.
-/

namespace Refearn.Web

open Support

structure RefreshResult where
  session : Option Session
  proven : Bool
  deriving DecidableEq

def emptyRefreshResult : RefreshResult := ⟨none, false⟩

/-! ## Whose session it is -/

def sameSessionIdentity (captured current : Session) : Bool :=
  captured.user.id = current.user.id &&
    captured.activeMembershipId = current.activeMembershipId && sameActiveTenant captured current

def sameRefreshOwner (captured current : Session) : Bool :=
  captured.accessToken = current.accessToken && captured.refreshToken = current.refreshToken &&
    sameSessionIdentity captured current

def ownsRefresh (store : Storage) (owner : Session) : Bool :=
  store.main.any (sameRefreshOwner owner)

def advancedSessionFor (store : Storage) (captured : Session) : Option Session :=
  store.main.filter fun current =>
    current.accessToken ≠ captured.accessToken && sameSessionIdentity captured current

def retrySessionFor (store : Storage) (captured : Session) (candidate : Option Session) :
    Option Session :=
  candidate.filter fun c => sameSessionIdentity captured c && ownsRefresh store c

/-! ## What a refresh does to the storage -/

def concurrentLocalValue {α : Type} [DecidableEq α] (beforeRefresh current server : α) : α :=
  if beforeRefresh = current then server else current

def reconcileRefreshedUser (owner current next : Session) : SessionUser where
  id := next.user.id
  email := concurrentLocalValue owner.user.email current.user.email next.user.email
  fullName := concurrentLocalValue owner.user.fullName current.user.fullName next.user.fullName
  locale := concurrentLocalValue owner.user.locale current.user.locale next.user.locale
  emailVerified :=
    concurrentLocalValue owner.user.emailVerified current.user.emailVerified next.user.emailVerified
  isPlatformAdmin := concurrentLocalValue owner.user.isPlatformAdmin current.user.isPlatformAdmin
    next.user.isPlatformAdmin

def clearRefreshOwner (owner : Session) (store : Storage) : Storage :=
  if store.main.any (sameRefreshOwner owner) then store.clear else store

def commitRefresh (owner next : Session) (store : Storage) : Storage × Option Session :=
  match store.main with
  | none => (store, none)
  | some current =>
      if sameRefreshOwner owner current then
        let committed := { next with user := reconcileRefreshedUser owner current next }
        match store.set committed with
        | some store => (store, some committed)
        | none => (store.clear, none)
      else (store, none)

/-- The answer to a refresh, if the client takes it. -/
def acceptedCandidate (owner : Session) (body : Option Session) : Option Session :=
  body.filter fun c => isSession c && c.refreshToken ≠ "" && sameSessionIdentity owner c

/-- What the holder of the lock does first. -/
inductive LockedRefresh
  | done (result : RefreshResult)
  | clear
  | send
  deriving DecidableEq

def performRefresh (owner : Session) : LockedRefresh :=
  if owner.refreshToken = "" then .clear else .send

def refreshWithCurrentSession (decode : DecodeClaims) (store : Storage) (owner : Session) :
    LockedRefresh :=
  match store.main with
  | none => .done emptyRefreshResult
  | some current =>
      if !sameSessionIdentity owner current then .done emptyRefreshResult
      else if current.accessToken ≠ owner.accessToken then
        .done ⟨some current, sameSessionFamily decode owner current⟩
      else if current.refreshToken ≠ owner.refreshToken then .done emptyRefreshResult
      else if !ownsRefresh store owner then .done emptyRefreshResult
      else performRefresh owner

/-! ## The browser and the server -/

/-- A refresh that a tab has under way, or a caller that waits for one. -/
structure Flight where
  tab : Nat
  owner : Session
  deriving DecidableEq

/-- Where the holder of the lock is: `answered none` will clear, `answered (some _)` commit. -/
inductive Phase
  | clearing
  | sent
  | answered (next : Option Session)
  deriving DecidableEq

structure Holder where
  flight : Flight
  phase : Phase
  deriving DecidableEq

/-- `accepted` lists the tokens the server has accepted for a refresh, `issued` those it has
handed out. `resent` collects the tokens that were sent when they had been accepted. -/
structure World where
  storage : Storage
  holder : Option Holder
  lockQueue : List Flight
  waiting : List Flight
  accepted : List String
  issued : List String
  resent : List String

structure World.Initial (w : World) : Prop where
  storage : w.storage = ⟨none, none⟩
  holder : w.holder = none
  accepted : w.accepted = []
  issued : w.issued = []
  resent : w.resent = []

inductive ServerAnswer
  | rejected
  /-- The token is spent and `token` takes its place; `body` is what reaches the client. -/
  | accepted (token : String) (body : Option Session)
  deriving DecidableEq

inductive Action
  /-- A request with this session was answered 401. -/
  | unauthorized (tab : Nat) (captured : Session) (allowUnprovenAdvance : Bool)
  /-- The refresh that a caller waited for is over. -/
  | resume (caller : Flight)
  | grantLock (flight : Flight)
  | serve (answer : ServerAnswer)
  | store
  | login (expected : Option Session) (next : Session)
  | saveProfile (expected : Session) (fullName locale : String)
  | applyTenantSwitch (expected : Session) (accessToken activeMembershipId : String)
  | startImpersonation (expectedAdmin : Session) (member : ImpersonatedMember)
  | stopImpersonation
  /-- `api.logout` posts the refresh token before it clears the session. -/
  | postLogout
  | clearSession

/-- `refreshInFlight` of a tab. -/
def refreshInFlight (w : World) (tab : Nat) : Option Flight :=
  match w.holder with
  | some h => if h.flight.tab = tab then some h.flight else w.lockQueue.find? (fun f => f.tab = tab)
  | none => w.lockQueue.find? (fun f => f.tab = tab)

/-- A caller joins the flight of its tab, waits for it, starts one or gets nothing. -/
def refresh (w : World) (caller : Flight) : World :=
  match refreshInFlight w caller.tab with
  | some active =>
      if sameRefreshOwner active.owner caller.owner then w
      else if ownsRefresh w.storage caller.owner then
        { w with waiting := w.waiting ++ [caller] }
      else w
  | none =>
      if ownsRefresh w.storage caller.owner then { w with lockQueue := w.lockQueue ++ [caller] }
      else w

/-- The first half of `sessionForRetry`: the session has advanced meanwhile, or a refresh
is called for. -/
def sessionForRetry (decode : DecodeClaims) (w : World) (tab : Nat) (captured : Session)
    (allowUnprovenAdvance : Bool) : World :=
  let advanced := retrySessionFor w.storage captured (advancedSessionFor w.storage captured)
  if advanced.any fun a => allowUnprovenAdvance || sameSessionFamily decode captured a then w
  else refresh w ⟨tab, captured⟩

/-- Post a refresh token to the server. -/
def World.send (w : World) (token : String) : World :=
  if token ∈ w.accepted then { w with resent := token :: w.resent } else w

def grantLock (decode : DecodeClaims) (w : World) (flight : Flight) : World :=
  if w.holder.isNone && flight ∈ w.lockQueue then
    let w := { w with lockQueue := w.lockQueue.erase flight }
    match refreshWithCurrentSession decode w.storage flight.owner with
    | .done _ => w
    | .clear => { w with holder := some ⟨flight, .clearing⟩ }
    | .send => { w.send flight.owner.refreshToken with holder := some ⟨flight, .sent⟩ }
  else w

/-- The server answers the token that is under way. It accepts a token once, and the one it
hands out is new. -/
def serve (w : World) (answer : ServerAnswer) : World :=
  match w.holder with
  | some ⟨flight, .sent⟩ =>
      match answer with
      | .rejected => { w with holder := some ⟨flight, .answered none⟩ }
      | .accepted token body =>
          if flight.owner.refreshToken ∉ w.accepted ∧ token ∉ w.issued ∧
              body.all (fun s => s.refreshToken = token) then
            { w with
              holder := some ⟨flight, .answered (acceptedCandidate flight.owner body)⟩
              accepted := flight.owner.refreshToken :: w.accepted
              issued := token :: w.issued }
          else { w with holder := some ⟨flight, .answered none⟩ }
  | _ => w

/-- The holder commits or clears, and gives the lock back. -/
def store (w : World) : World :=
  match w.holder with
  | some ⟨flight, .answered (some next)⟩ =>
      { w with storage := (commitRefresh flight.owner next w.storage).1, holder := none }
  | some ⟨flight, .answered none⟩ | some ⟨flight, .clearing⟩ =>
      { w with storage := clearRefreshOwner flight.owner w.storage, holder := none }
  | _ => w

/-- A mutation that throws changes nothing. -/
def World.mutate (w : World) (result : Option Storage) : World :=
  { w with storage := result.getD w.storage }

def step (decode : DecodeClaims) (action : Action) (w : World) : World :=
  match action with
  | .unauthorized tab captured allowUnprovenAdvance =>
      sessionForRetry decode w tab captured allowUnprovenAdvance
  | .resume caller =>
      if caller ∈ w.waiting then refresh { w with waiting := w.waiting.erase caller } caller
      else w
  | .grantLock flight => grantLock decode w flight
  | .serve answer => serve w answer
  | .store => store w
  | .login expected next =>
      if next.refreshToken ∈ w.issued then w
      else { w.mutate (replaceSessionIfCurrent expected next w.storage) with
        issued := next.refreshToken :: w.issued }
  | .saveProfile expected fullName locale =>
      w.mutate (Web.saveProfile expected fullName locale w.storage)
  | .applyTenantSwitch expected accessToken activeMembershipId =>
      w.mutate (Web.applyTenantSwitch expected accessToken activeMembershipId w.storage)
  | .startImpersonation expectedAdmin member =>
      w.mutate (Web.startImpersonation decode expectedAdmin (impersonationSession member) w.storage)
  | .stopImpersonation => { w with storage := Web.stopImpersonation decode w.storage }
  | .postLogout =>
      match w.storage.main with
      | some session => if session.refreshToken = "" then w else w.send session.refreshToken
      | none => w
  | .clearSession => { w with storage := Web.clearSession w.storage }

end Refearn.Web
