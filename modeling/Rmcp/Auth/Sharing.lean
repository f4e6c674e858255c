import Rmcp.Auth.Renewal
import Rmcp.Support.LockPool

/-!
# Tasks that share a manager

`AuthorizedHttpClient` holds its manager in an `Arc`, and every request gets its access token
with `get_access_token`. A task that finds the token expired reads the refresh token under a
guard, drops the guard, presents the refresh token and only then takes the guard that it stores
the reply under; nothing holds another task back in between.

Results:
1. `orderly_getAccessToken`: in what order a task reads, presents and stores.
2. `refresh_token_spent_once_iff`: the runs in which no refresh token is spent twice.
-/

namespace Rmcp.Auth

open LockProg
open AuthorizationManager (storeExpiry addDuration)

universe u

variable {C : Crates} {ρ : Type}

/-! ## Where a task is -/

/-- Where a task is in a refresh. -/
inductive Stage
  | idle
  /-- It has read the refresh token that it is about to present. -/
  | presenting (refreshToken : String)
  /-- It has been answered, and is about to store the answer. -/
  | saving (token : OAuthTokenResponse)

/-- What a task is about to do next with the credentials. -/
def stage : AuthProg C ρ → Stage
  | .ask (.exchangeRefreshToken _ _ refreshToken) _ => .presenting refreshToken
  | .store .credentials (some token) _ => .saving token
  | .release _ _ k => stage k
  | .acquire _ .write k => stage k
  | _ => .idle

/-- A program that presents no refresh token but one it has just read, stores what it is answered,
and stores nothing else in `credentials`. -/
def Orderly : AuthProg C ρ → Prop
  | .ret _ | .panicked => True
  | .acquire l m k => stage (C := C) (.acquire l m k) = stage k ∧ Orderly k
  | .release _ _ k => Orderly k
  | .load .credentials k => ∀ v : Option OAuthTokenResponse,
    (stage (k v) = .idle ∨
      ∃ refreshToken ∈ v.bind (·.refreshToken), stage (k v) = .presenting refreshToken) ∧
    Orderly (k v)
  | .load _ k => ∀ v, stage (k v) = .idle ∧ Orderly (k v)
  | .store .credentials v k => v.isSome ∧ stage k = .idle ∧ Orderly k
  | .store _ _ k => stage k = .idle ∧ Orderly k
  | .ask (.exchangeRefreshToken _ _ _) k => ∀ answer : Except String OAuthTokenResponse,
    stage (k answer) = answer.toOption.elim .idle .saving ∧ Orderly (k answer)
  | .ask _ k => ∀ answer, stage (k answer) = .idle ∧ Orderly (k answer)

theorem stage_bind {ρ' : Type} (p : AuthProg C ρ) {f : ρ → AuthProg C ρ'}
    (hf : ∀ result, stage (f result) = .idle) : stage (p >>= f) = stage p := by
  show stage (p.bind f) = stage p
  induction p with
  | ret result => exact hf result
  | panicked => rfl
  | acquire l m k ih =>
    cases m with
    | read => rfl
    | write => exact ih
  | release l m k ih => exact ih
  | load l k ih => rfl
  | store l v k ih =>
    cases l with
    | credentials => cases v <;> rfl
    | pkceVerifier => rfl
    | expiresAt => rfl
  | ask q k ih => cases q <;> rfl

/-- Programs run one after the other are orderly if each of them is, and the later ones start
with nothing read and nothing to store. -/
theorem orderly_bind {ρ' : Type} {p : AuthProg C ρ} {f : ρ → AuthProg C ρ'} (hp : Orderly p)
    (hidle : ∀ result, stage (f result) = .idle) (hf : ∀ result, Orderly (f result)) :
    Orderly (p >>= f) := by
  show Orderly (p.bind f)
  have hstage : ∀ p : AuthProg C ρ, stage (p.bind f) = stage p := fun p => stage_bind p hidle
  induction p with
  | ret result => exact hf result
  | panicked => trivial
  | acquire l m k ih =>
    refine ⟨?_, ih hp.2⟩
    have hsame : stage (C := C) (.acquire l m (k.bind f)) = stage (.acquire l m k) :=
      hstage (.acquire l m k)
    rw [hsame, hstage]
    exact hp.1
  | release l m k ih => exact ih hp
  | load l k ih =>
    cases l with
    | credentials =>
      intro v
      rw [hstage]
      exact ⟨(hp v).1, ih v (hp v).2⟩
    | pkceVerifier | expiresAt =>
      intro v
      rw [hstage]
      exact ⟨(hp v).1, ih v (hp v).2⟩
  | store l v k ih =>
    cases l with
    | credentials => exact ⟨hp.1, (hstage k).trans hp.2.1, ih hp.2.2⟩
    | pkceVerifier | expiresAt => exact ⟨(hstage k).trans hp.1, ih hp.2⟩
  | ask q k ih =>
    cases q
    all_goals
      intro answer
      rw [hstage]
      exact ⟨(hp answer).1, ih answer (hp answer).2⟩

theorem idle_orderly_bind {ρ' : Type} {p : AuthProg C ρ} {f : ρ → AuthProg C ρ'}
    (hp : stage p = .idle ∧ Orderly p) (hf : ∀ result, stage (f result) = .idle ∧ Orderly (f result)) :
    stage (p >>= f) = .idle ∧ Orderly (p >>= f) :=
  ⟨(stage_bind p fun result => (hf result).1).trans hp.1,
    orderly_bind hp.2 (fun result => (hf result).1) fun result => (hf result).2⟩

theorem orderly_storeExpiry (read : ClockRead) (expiresIn : Option Nat) :
    stage (storeExpiry (C := C) read expiresIn) = .idle ∧
      Orderly (storeExpiry (C := C) read expiresIn) := by
  cases expiresIn with
  | none => exact ⟨rfl, trivial⟩
  | some d =>
    refine ⟨rfl, fun now => ?_⟩
    refine ⟨?_, ?_⟩
    · show stage (addDuration C now d >>= _) = .idle
      rw [addDuration]
      split <;> rfl
    · show Orderly (addDuration C now d >>= _)
      rw [addDuration]
      split
      · exact ⟨rfl, rfl, trivial⟩
      · trivial

/-- A refresh reads, presents what it has read, and stores the reply. -/
theorem orderly_refreshToken (m : AuthorizationManager C) :
    stage m.refreshToken = .idle ∧ Orderly m.refreshToken := by
  unfold AuthorizationManager.refreshToken
  cases m.oauthClient with
  | none => exact ⟨rfl, trivial⟩
  | some client =>
    refine ⟨rfl, rfl, fun current => ?_⟩
    cases current with
    | none => exact ⟨.inl rfl, trivial⟩
    | some current =>
      obtain ⟨accessToken, refreshToken, expiresIn⟩ := current
      cases refreshToken with
      | none => exact ⟨.inl rfl, trivial⟩
      | some refreshToken =>
        refine ⟨.inr ⟨refreshToken, rfl, rfl⟩, fun answer => ?_⟩
        cases answer with
        | error e => exact ⟨rfl, trivial⟩
        | ok token =>
          have hrest : stage (storeExpiry .tokenRefreshed token.expiresIn >>= fun _ =>
              (pure (.ok token) : AuthProg C (Except AuthError OAuthTokenResponse))) = .idle ∧
            Orderly (storeExpiry .tokenRefreshed token.expiresIn >>= fun _ =>
              (pure (.ok token) : AuthProg C (Except AuthError OAuthTokenResponse))) :=
            idle_orderly_bind (orderly_storeExpiry _ _) fun _ => ⟨rfl, trivial⟩
          exact ⟨rfl, rfl, rfl, hrest⟩

theorem orderly_getAccessToken (m : AuthorizationManager C) : Orderly m.getAccessToken := by
  refine ⟨rfl, fun credentials => ?_⟩
  cases credentials with
  | none => exact ⟨.inl rfl, trivial⟩
  | some creds =>
    refine ⟨.inl rfl, rfl, fun expiresAt => ?_⟩
    cases expiresAt with
    | none => exact ⟨rfl, trivial⟩
    | some expiresAt =>
      refine ⟨rfl, fun now => ?_⟩
      show stage (if expiresAt < now then _ else _) = .idle ∧
        Orderly (if expiresAt < now then _ else _)
      by_cases hlt : expiresAt < now
      · rw [if_pos hlt]
        exact idle_orderly_bind ⟨rfl, trivial⟩ fun _ =>
          idle_orderly_bind (orderly_refreshToken m) fun _ => ⟨rfl, trivial⟩
      · rw [if_neg hlt]
        exact ⟨rfl, trivial⟩

/-! ## What a task does -/

/-- The refresh token that is presented in an exchange. -/
def presented : Exchange (locks C) → Option String
  | ⟨.exchangeRefreshToken _ _ refreshToken, _⟩ => some refreshToken
  | _ => none

/-- The refresh token that is presented with success. -/
def spent : Exchange (locks C) → Option String
  | ⟨.exchangeRefreshToken _ _ refreshToken, .ok _⟩ => some refreshToken
  | _ => none

/-- The refresh token that the token endpoint issues in an exchange. -/
def issued : Exchange (locks C) → Option String
  | ⟨.exchangeRefreshToken _ _ _, .ok token⟩ => token.refreshToken
  | _ => none

theorem presented_of_spent {e : Exchange (locks C)} {refreshToken : String}
    (h : spent e = some refreshToken) : presented e = some refreshToken := by
  unfold spent at h
  split at h
  · exact h
  · cases h

/-- The refresh token that is stored. -/
def storedToken (memory : Memory (locks C)) : Option String :=
  let credentials : Option OAuthTokenResponse := memory .credentials
  credentials.bind (·.refreshToken)

/-- The next operation presents a refresh token. -/
def Presents (p : AuthProg C ρ) (client : OAuthClient) (http : C.HttpClient)
    (refreshToken : String) : Prop :=
  ∃ k, p = .ask (.exchangeRefreshToken client http refreshToken) k

theorem Presents.stage_eq {p : AuthProg C ρ} {client : OAuthClient} {http : C.HttpClient}
    {refreshToken : String} (h : Presents p client http refreshToken) :
    stage p = .presenting refreshToken := by
  obtain ⟨k, rfl⟩ := h
  rfl

/-- What one operation does in a refresh. -/
inductive Moves (env : Env C) (memory memory' : Memory (locks C)) (new : List (Exchange (locks C)))
    (p p' : AuthProg C ρ) : Prop
  | aside (hstage : stage p' = stage p) (hstored : memory' .credentials = memory .credentials)
      (hnew : ∀ e ∈ new, presented e = none)
      (hnext : ∀ client http refreshToken, ¬ Presents p client http refreshToken)
  | reads (refreshToken : String) (hstored : storedToken memory = some refreshToken)
      (hbefore : stage p = .idle) (hafter : stage p' = .presenting refreshToken)
      (hmemory : memory' = memory) (hnew : new = [])
  | presents (client : OAuthClient) (http : C.HttpClient) (refreshToken : String)
      (hbefore : Presents p client http refreshToken)
      (hafter : stage p' = (env (.exchangeRefreshToken client http refreshToken)).toOption.elim
        .idle .saving)
      (hmemory : memory' = memory)
      (hnew : new = [⟨.exchangeRefreshToken client http refreshToken,
        env (.exchangeRefreshToken client http refreshToken)⟩])
  | stores (token : OAuthTokenResponse) (hbefore : stage p = .saving token)
      (hafter : stage p' = .idle) (hmemory : memory' .credentials = some token) (hnew : new = [])

theorem Orderly.moves {env : Env C} {memory memory' : Memory (locks C)}
    {new : List (Exchange (locks C))} {p p' : AuthProg C ρ} (hp : Orderly p)
    (h : Advance env p memory p' memory' new) :
    Orderly p' ∧ Moves env memory memory' new p p' := by
  cases h with
  | unwind => exact ⟨hp, .aside rfl rfl (by simp) (by simp [Presents])⟩
  | acquire l m => exact ⟨hp.2, .aside hp.1.symm rfl (by simp) (by simp [Presents])⟩
  | release l m => exact ⟨hp, .aside rfl rfl (by simp) (by simp [Presents])⟩
  | load l k =>
    cases l with
    | credentials =>
      obtain ⟨hstage, hk⟩ := hp (memory .credentials)
      rcases hstage with hstage | ⟨refreshToken, hstored, hstage⟩
      · exact ⟨hk, .aside hstage rfl (by simp) (by simp [Presents])⟩
      · exact ⟨hk, .reads refreshToken hstored rfl hstage rfl rfl⟩
    | pkceVerifier | expiresAt => exact ⟨(hp _).2, .aside (hp _).1 rfl (by simp) (by simp [Presents])⟩
  | store l v =>
    cases l with
    | credentials =>
      obtain ⟨hsome, hstage, hk⟩ := hp
      obtain ⟨token, rfl⟩ := Option.isSome_iff_exists.mp hsome
      exact ⟨hk, .stores token rfl hstage (Function.update_self ..) rfl⟩
    | pkceVerifier | expiresAt => exact ⟨hp.2, .aside hp.1 rfl (by simp) (by simp [Presents])⟩
  | ask q k =>
    cases q with
    | exchangeRefreshToken client http refreshToken =>
      exact ⟨(hp _).2, .presents client http refreshToken ⟨k, rfl⟩ (hp _).1 rfl rfl⟩
    | _ => exact ⟨(hp _).2, .aside (hp _).1 rfl (by simp [presented]) (by simp [Presents])⟩

/-! ## One refresh at a time -/

/-- What refreshes have to do with each other: where every task is, the refresh token that is
stored, and the ones that have been presented with success. -/
structure RefreshView (ι : Type u) where
  stages : ι → Stage
  stored : Option String
  spent : List String

namespace RefreshView

variable {ι : Type u}

/-- No task has a reply that it has not stored. -/
def Settled (v : RefreshView ι) : Prop := ∀ i token, v.stages i ≠ .saving token

/-- A refresh token that is still good is the stored one, and this is no longer good while the
reply to it is on its way to where it will be stored. -/
structure Tidy (v : RefreshView ι) : Prop where
  fresh : v.Settled → ∀ refreshToken ∈ v.stored, refreshToken ∉ v.spent
  alone : ∀ i j token token', v.stages i = .saving token → v.stages j = .saving token' → i = j
  saved : ∀ i token, v.stages i = .saving token →
    (∀ refreshToken ∈ token.refreshToken, refreshToken ∉ v.spent) ∧
      ∃ refreshToken ∈ v.stored, refreshToken ∈ v.spent
  known : ∀ i refreshToken, v.stages i = .presenting refreshToken →
    v.stored = some refreshToken ∨ refreshToken ∈ v.spent

/-- Nothing is lost by presenting a refresh token: it is the stored one, and nobody else has got a
reply to it. -/
def Fresh (v : RefreshView ι) (refreshToken : String) : Prop :=
  v.stored = some refreshToken ∧ v.Settled

theorem Tidy.fresh_iff {v : RefreshView ι} (hv : v.Tidy) {i : ι} {refreshToken : String}
    (hi : v.stages i = .presenting refreshToken) :
    v.Fresh refreshToken ↔ refreshToken ∉ v.spent := by
  constructor
  · rintro ⟨hstored, hsettled⟩
    exact hv.fresh hsettled refreshToken hstored
  · intro hgood
    have hstored : v.stored = some refreshToken := (hv.known i refreshToken hi).resolve_right hgood
    refine ⟨hstored, fun j token hj => ?_⟩
    obtain ⟨-, spentToken, hmem, hspent⟩ := hv.saved j token hj
    cases hstored.symm.trans hmem
    exact hgood hspent

variable [DecidableEq ι]

/-- The task `i` gets to another stage. -/
def move (v : RefreshView ι) (i : ι) (stage : Stage) : RefreshView ι :=
  { v with stages := Function.update v.stages i stage }

theorem move_stages (v : RefreshView ι) (i : ι) : v.move i (v.stages i) = v := by
  simp [move]

/-- What a task has to do with a stage after another one, or itself, has moved. -/
theorem stages_move {v : RefreshView ι} {i j : ι} {stage stage' : Stage} :
    (v.move i stage).stages j = stage' ↔
      (j = i ∧ stage = stage') ∨ (j ≠ i ∧ v.stages j = stage') := by
  by_cases hj : j = i
  · subst hj
    simp [move]
  · simp [move, hj]

/-- A task that saves nothing, before or after, leaves nobody alone. -/
theorem saving_move {v : RefreshView ι} {i j : ι} {stage : Stage} {token : OAuthTokenResponse}
    (hbefore : ∀ token, v.stages i ≠ .saving token) (hafter : ∀ token, stage ≠ .saving token) :
    (v.move i stage).stages j = .saving token ↔ v.stages j = .saving token := by
  rw [stages_move]
  constructor
  · rintro (⟨rfl, rfl⟩ | ⟨-, hj⟩)
    · exact absurd rfl (hafter token)
    · exact hj
  · intro hj
    refine .inr ⟨?_, hj⟩
    rintro rfl
    exact hbefore token hj

/-- A task that saves nothing, before or after, presents only what is known. -/
theorem Tidy.move {v : RefreshView ι} (hv : v.Tidy) {i : ι} {stage : Stage}
    (hbefore : ∀ token, v.stages i ≠ .saving token) (hafter : ∀ token, stage ≠ .saving token)
    (hknown : ∀ refreshToken, stage = .presenting refreshToken → v.stored = some refreshToken) :
    (v.move i stage).Tidy where
  fresh hsettled := hv.fresh fun j token hj =>
    hsettled j token ((saving_move hbefore hafter).mpr hj)
  alone j j' token token' hj hj' :=
    hv.alone j j' token token' ((saving_move hbefore hafter).mp hj) ((saving_move hbefore hafter).mp hj')
  saved j token hj := hv.saved j token ((saving_move hbefore hafter).mp hj)
  known j refreshToken hj := by
    rcases stages_move.mp hj with ⟨rfl, hstage⟩ | ⟨-, hj⟩
    · exact .inl (hknown refreshToken hstage)
    · exact hv.known j refreshToken hj

/-- The refresh token that is stored has been presented with success. -/
theorem Tidy.answered {v : RefreshView ι} (hv : v.Tidy) {i : ι} {refreshToken : String}
    {token : OAuthTokenResponse} (hfresh : v.Fresh refreshToken)
    (hrotates : ∀ t ∈ token.refreshToken, t ≠ refreshToken ∧ t ∉ v.spent) :
    ({ v with spent := v.spent ++ [refreshToken] }.move i (.saving token)).Tidy := by
  obtain ⟨hstored, hsettled⟩ := hfresh
  -- nobody but `i` saves a reply
  have honly : ∀ j token', (v.move i (.saving token)).stages j = .saving token' →
      j = i ∧ token = token' := by
    intro j token' hj
    rcases stages_move.mp hj with ⟨hji, hstage⟩ | ⟨-, hj⟩
    · exact ⟨hji, Stage.saving.inj hstage⟩
    · exact absurd hj (hsettled j token')
  refine ⟨fun hsettled' => ?_, ?_, ?_, ?_⟩
  · exact absurd (stages_move.mpr (.inl ⟨rfl, rfl⟩)) (hsettled' i token)
  · intro j j' token₁ token₂ hj hj'
    exact (honly j token₁ hj).1.trans (honly j' token₂ hj').1.symm
  · intro j token' hj
    obtain ⟨rfl, rfl⟩ := honly j token' hj
    refine ⟨fun t ht => ?_, refreshToken, hstored, by simp [RefreshView.move]⟩
    obtain ⟨hne, hgood⟩ := hrotates t ht
    simp [RefreshView.move, hne, hgood]
  · intro j t hj
    rcases stages_move.mp hj with ⟨-, hstage⟩ | ⟨-, hj⟩
    · cases hstage
    · rcases hv.known j t hj with ht | ht
      · exact .inl ht
      · exact .inr (List.mem_append_left _ ht)

/-- A reply is stored, and what was stored before is known to have been presented. -/
theorem Tidy.stores {v : RefreshView ι} (hv : v.Tidy) {i : ι} {token : OAuthTokenResponse}
    (hi : v.stages i = .saving token) :
    ({ v with stored := token.refreshToken }.move i .idle).Tidy := by
  obtain ⟨hgood, before, hbefore, hspent⟩ := hv.saved i token hi
  have hsettled : ∀ j token', (v.move i .idle).stages j ≠ .saving token' := by
    intro j token' hj
    rcases stages_move.mp hj with ⟨-, hstage⟩ | ⟨hji, hj⟩
    · cases hstage
    · exact hji (hv.alone j i token' token hj hi)
  refine ⟨fun _ => hgood, ?_, ?_, ?_⟩
  · intro j j' token₁ token₂ hj
    exact absurd hj (hsettled j token₁)
  · intro j token' hj
    exact absurd hj (hsettled j token')
  · intro j t hj
    rcases stages_move.mp hj with ⟨-, hstage⟩ | ⟨-, hj⟩
    · cases hstage
    · rcases hv.known j t hj with ht | ht
      · cases ht.symm.trans hbefore
        exact .inr hspent
      · exact .inr ht

end RefreshView

/-! ## The tasks of a manager -/

variable {ι : Type u}

/-- Tasks that share a manager and call `get_access_token`. -/
abbrev SharedManager (C : Crates) (ι : Type u) := Pool (locks C) ι (Except AuthError String)

namespace SharedManager

def start (m : AuthorizationManager C) : SharedManager C ι := Pool.start m.getAccessToken m.memory

def view (pool : SharedManager C ι) : RefreshView ι :=
  { stages := fun i => stage (pool.progs i)
    stored := storedToken pool.memory
    spent := pool.asked.filterMap spent }

/-- A refresh token that has been presented with success is not presented again. -/
def SpentOnce (pool : SharedManager C ι) : Prop :=
  pool.asked.Pairwise fun e e' => ∀ refreshToken, spent e = some refreshToken →
    presented e' ≠ some refreshToken

/-- The token endpoint rotates: it issues no refresh token that has been presented with success,
by then or in the same exchange. -/
structure Rotating (asked : List (Exchange (locks C))) : Prop where
  earlier : asked.Pairwise fun e e' => ∀ t, issued e' = some t → spent e ≠ some t
  same : ∀ e ∈ asked, ∀ t, issued e = some t → spent e ≠ some t

theorem Rotating.of_append {asked new : List (Exchange (locks C))} (h : Rotating (asked ++ new)) :
    Rotating asked where
  earlier := (List.pairwise_append.mp h.earlier).1
  same e he := h.same e (List.mem_append_left new he)

theorem Rotating.last {asked : List (Exchange (locks C))} {e : Exchange (locks C)} {t : String}
    (h : Rotating (asked ++ [e])) (ht : issued e = some t) :
    spent e ≠ some t ∧ t ∉ asked.filterMap spent := by
  refine ⟨h.same e (List.mem_append_right asked List.mem_cons_self) t ht, fun hmem => ?_⟩
  obtain ⟨e', he', hspent⟩ := List.mem_filterMap.mp hmem
  exact (List.pairwise_append.mp h.earlier).2.2 e' he' e List.mem_cons_self t ht hspent

/-- A task that presents a refresh token presents the one that is stored, and no other task has
been given a new one that it has not stored yet. -/
def PresentsStored (pool : SharedManager C ι) (turn : ι × Env C) : Prop :=
  ∀ client http refreshToken, Presents (pool.progs turn.1) client http refreshToken →
    storedToken pool.memory = some refreshToken ∧
      ∀ j token, stage (pool.progs j) ≠ .saving token

structure Sound (pool : SharedManager C ι) : Prop where
  orderly : ∀ i, Orderly (pool.progs i)
  tidy : pool.view.Tidy
  once : pool.SpentOnce

theorem sound_start (m : AuthorizationManager C) : (start (ι := ι) m).Sound where
  orderly _ := orderly_getAccessToken m
  tidy := ⟨fun _ _ _ => List.not_mem_nil, nofun, nofun, nofun⟩
  once := .nil

theorem spentOnce_append {asked new : List (Exchange (locks C))}
    (h : asked.Pairwise fun e e' => ∀ t, spent e = some t → presented e' ≠ some t)
    (hnew : ∀ e ∈ new, presented e = none) :
    (asked ++ new).Pairwise fun e e' => ∀ t, spent e = some t → presented e' ≠ some t := by
  refine List.pairwise_append.mpr ⟨h, List.pairwise_of_forall_mem_list ?_, ?_⟩
  · intro e he e' he' t _
    simp [hnew e' he']
  · intro e he e' he' t _
    simp [hnew e' he']

/-- One more refresh token that is presented. -/
theorem spentOnce_concat_iff {asked : List (Exchange (locks C))} {e : Exchange (locks C)}
    (h : asked.Pairwise fun e e' => ∀ t, spent e = some t → presented e' ≠ some t)
    {refreshToken : String} (he : presented e = some refreshToken) :
    ((asked ++ [e]).Pairwise fun e e' => ∀ t, spent e = some t → presented e' ≠ some t) ↔
      refreshToken ∉ asked.filterMap spent := by
  rw [List.pairwise_append]
  constructor
  · rintro ⟨-, -, hlast⟩ hspent
    obtain ⟨e', he', hspent⟩ := List.mem_filterMap.mp hspent
    exact hlast e' he' e List.mem_cons_self refreshToken hspent he
  · intro hgood
    refine ⟨h, List.pairwise_singleton _ _, ?_⟩
    rintro e' he' _ (_ | ⟨_, ⟨⟩⟩) t hspent hpresented
    cases he.symm.trans hpresented
    exact hgood (List.mem_filterMap.mpr ⟨e', he', hspent⟩)

variable [DecidableEq ι]

theorem view_step {pool pool' : SharedManager C ι} {i : ι} {p : AuthProg C (Except AuthError String)}
    (hprogs : pool'.progs = Function.update pool.progs i p) :
    pool'.view = { pool.view with
      stored := storedToken pool'.memory
      spent := pool'.asked.filterMap spent }.move i (stage p) := by
  simp only [view, RefreshView.move, RefreshView.mk.injEq, and_true]
  funext j
  rw [hprogs]
  exact Function.apply_update (fun _ => stage) pool.progs i p j

/-- One step of the pool, as a move of one task. -/
theorem Sound.moves {pool pool' : SharedManager C ι} (h : pool.Sound) {i : ι} {env : Env C}
    (hs : pool.step (i, env) = some pool') :
    ∃ p new, Moves env pool.memory pool'.memory new (pool.progs i) p ∧
      (∀ j, Orderly (pool'.progs j)) ∧ pool'.asked = pool.asked ++ new ∧
      pool'.view = { pool.view with
        stored := storedToken pool'.memory
        spent := pool'.asked.filterMap spent }.move i (stage p) := by
  obtain ⟨p, new, hadvance, hprogs, hasked⟩ := Pool.step_advance hs
  obtain ⟨hp, hmoves⟩ := (h.orderly i).moves hadvance
  refine ⟨p, new, hmoves, fun j => ?_, hasked, view_step hprogs⟩
  rw [hprogs]
  by_cases hj : j = i
  · subst hj
    rwa [Function.update_self]
  · rw [Function.update_of_ne hj]
    exact h.orderly j

theorem filterMap_spent_eq_nil {new : List (Exchange (locks C))}
    (hnew : ∀ e ∈ new, presented e = none) : new.filterMap spent = [] := by
  refine List.filterMap_eq_nil_iff.mpr fun e he => ?_
  cases hspent : spent e with
  | none => rfl
  | some t => cases (hnew e he).symm.trans (presented_of_spent hspent)

theorem tidy_step {pool pool' : SharedManager C ι} (h : pool.Sound) {i : ι} {env : Env C}
    (hs : pool.step (i, env) = some pool') (hrotates : Rotating pool'.asked)
    (hstored : pool.PresentsStored (i, env)) : pool'.view.Tidy := by
  obtain ⟨p, new, hmoves, -, hasked, hview⟩ := h.moves hs
  rw [hview, hasked, List.filterMap_append]
  rw [hasked] at hrotates
  cases hmoves with
  | aside hstage hcreds hnew =>
    rw [storedToken, hcreds, filterMap_spent_eq_nil hnew, List.append_nil, hstage]
    exact (pool.view.move_stages i).symm ▸ h.tidy
  | reads t hread hbefore hafter hmemory hnew =>
    rw [hmemory, hnew, List.filterMap_nil, List.append_nil, hafter]
    refine h.tidy.move (fun token hsaving => ?_) (fun token hsaving => ?_) fun t' ht => ?_
    · cases hbefore.symm.trans hsaving
    · cases hsaving
    · cases ht
      exact hread
  | presents client http t hbefore hafter hmemory hnew =>
    have hfresh : pool.view.Fresh t := hstored client http t hbefore
    rw [hmemory, hnew, hafter]
    cases hanswer : env (.exchangeRefreshToken client http t) with
    | error e =>
      have hidle : (pool.view.move i .idle).Tidy :=
        h.tidy.move (hfresh.2 i) (fun _ => Stage.noConfusion) fun _ => Stage.noConfusion
      show ({ pool.view with spent := pool.asked.filterMap spent ++ [] }.move i .idle).Tidy
      rw [List.append_nil]
      exact hidle
    | ok token =>
      refine h.tidy.answered hfresh fun t' ht' => ?_
      rw [hnew, hanswer] at hrotates
      obtain ⟨hsame, hearlier⟩ := hrotates.last ht'
      exact ⟨fun heq => hsame (congrArg some heq.symm), hearlier⟩
  | stores token hbefore hafter hmemory hnew =>
    rw [storedToken, hmemory, hnew, List.filterMap_nil, List.append_nil, hafter]
    exact h.tidy.stores hbefore

/-- No refresh token is spent twice by a step iff a stored one is presented. -/
theorem once_step_iff {pool pool' : SharedManager C ι} (h : pool.Sound) {i : ι} {env : Env C}
    (hs : pool.step (i, env) = some pool') : pool'.SpentOnce ↔ pool.PresentsStored (i, env) := by
  obtain ⟨p, new, hmoves, -, hasked, -⟩ := h.moves hs
  -- where nothing is presented
  have haside (hnew : ∀ e ∈ new, presented e = none)
      (hnext : ∀ client http t, ¬ Presents (pool.progs i) client http t) :
      pool'.SpentOnce ↔ pool.PresentsStored (i, env) := by
    refine iff_of_true ?_ fun client http t hpresents => absurd hpresents (hnext client http t)
    rw [SpentOnce, hasked]
    exact spentOnce_append h.once hnew
  have hother {s : Stage} (hbefore : stage (pool.progs i) = s) (hs : ∀ t, s ≠ .presenting t) :
      ∀ client http t, ¬ Presents (pool.progs i) client http t :=
    fun _ _ t hpresents => hs t (hbefore.symm.trans hpresents.stage_eq)
  cases hmoves with
  | aside hstage hcreds hnew hnext => exact haside hnew hnext
  | reads t hread hbefore hafter hmemory hnew =>
    exact haside (by simp [hnew]) (hother hbefore fun _ => Stage.noConfusion)
  | stores token hbefore hafter hmemory hnew =>
    exact haside (by simp [hnew]) (hother hbefore fun _ => Stage.noConfusion)
  | presents client http t hbefore hafter hmemory hnew =>
    have hnext : pool.PresentsStored (i, env) ↔ pool.view.Fresh t := by
      constructor
      · intro hstored
        exact hstored client http t hbefore
      · intro hfresh client' http' t' hbefore'
        cases hbefore.stage_eq.symm.trans hbefore'.stage_eq
        exact hfresh
    rw [hnext, h.tidy.fresh_iff hbefore.stage_eq, SpentOnce, hasked, hnew]
    exact spentOnce_concat_iff h.once rfl

/-- What is asked later does not undo that a refresh token has been spent twice. -/
theorem once_of_step {pool pool' : SharedManager C ι} {turn : ι × Env C}
    (hs : pool.step turn = some pool') (h : pool'.SpentOnce) : pool.SpentOnce := by
  obtain ⟨i, env⟩ := turn
  obtain ⟨p, new, -, -, hasked⟩ := Pool.step_advance hs
  rw [SpentOnce, hasked] at h
  exact (List.pairwise_append.mp h).1

theorem sound_step {pool pool' : SharedManager C ι} (h : pool.Sound) {i : ι} {env : Env C}
    (hs : pool.step (i, env) = some pool') (hrotates : Rotating pool'.asked)
    (hstored : pool.PresentsStored (i, env)) : pool'.Sound := by
  obtain ⟨p, new, hmoves, horderly, hasked, hview⟩ := h.moves hs
  exact ⟨horderly, tidy_step h hs hrotates hstored, (once_step_iff h hs).mpr hstored⟩

/-- With a token endpoint that rotates the refresh tokens: no refresh token is spent twice iff
every task that presents one presents the one that is stored. -/
theorem refresh_token_spent_once_iff {m : AuthorizationManager C} {turns : List (ι × Env C)}
    {pool : SharedManager C ι} (hrun : Transition.Run Pool.step (start m) turns pool)
    (hrotates : Rotating pool.asked) :
    pool.SpentOnce ↔ Transition.Always Pool.step PresentsStored (start m) turns := by
  suffices hboth : Rotating pool.asked →
      (pool.SpentOnce ↔ Transition.Always Pool.step PresentsStored (start m) turns) ∧
        (pool.SpentOnce → pool.Sound) from (hboth hrotates).1
  clear hrotates
  refine hrun.invariant (P := fun turns (pool : SharedManager C ι) => Rotating pool.asked →
    (pool.SpentOnce ↔ Transition.Always Pool.step PresentsStored (start m) turns) ∧
      (pool.SpentOnce → pool.Sound)) ?_ ?_
  · exact fun _ => ⟨iff_of_true (sound_start m).once trivial, fun _ => sound_start m⟩
  · intro turns pool pool' (i, env) hrun ih hs hrotates
    obtain ⟨p, new, -, -, hasked⟩ := Pool.step_advance hs
    obtain ⟨hsame, hsound⟩ := ih (hasked ▸ hrotates).of_append
    rw [hrun.always_concat, ← hsame]
    refine ⟨⟨fun hafter => ?_, fun ⟨hbefore, hstored⟩ => ?_⟩, fun hafter => ?_⟩
    · have hbefore := once_of_step hs hafter
      exact ⟨hbefore, (once_step_iff (hsound hbefore) hs).mp hafter⟩
    · exact (once_step_iff (hsound hbefore) hs).mpr hstored
    · have hbefore := hsound (once_of_step hs hafter)
      exact sound_step hbefore hs hrotates ((once_step_iff hbefore hs).mp hafter)

end SharedManager

open SharedManager

/-- `bareEnv` with a token endpoint that takes no refresh token. -/
def envRefusing : Env bareCrates
  | .exchangeRefreshToken .. => .error "invalid_grant"
  | .exchangeCode .. => .error "invalid_grant"
  | .httpClient secs => bareEnv (.httpClient secs)
  | .exchangeClient => bareEnv .exchangeClient
  | .metadata client url header => bareEnv (.metadata client url header)
  | .registration client url request => bareEnv (.registration client url request)
  | .authorizeUrl client scopes => bareEnv (.authorizeUrl client scopes)
  | .now read => bareEnv (.now read)

/-- What is asked along some turns of two tasks. -/
def askedBy (turns : List (Bool × Env bareCrates)) : Option (List (Exchange (locks bareCrates))) :=
  (Transition.exec Pool.step (start expiredManager) turns).map (·.asked)

/-- One task refreshes the token, and then the other one. -/
abbrev turnsInTurn : List (Bool × Env bareCrates) :=
  List.replicate 14 (true, envIssuing 100 ⟨"second", some "r2", none⟩) ++
    List.replicate 14 (false, envIssuing 100 ⟨"third", some "r3", none⟩)

/-- Both tasks read the refresh token before one of them presents it. -/
abbrev turnsTogether : List (Bool × Env bareCrates) :=
  List.replicate 9 (true, envIssuing 100 ⟨"second", some "r2", none⟩) ++
    List.replicate 9 (false, envRefusing) ++
    [(true, envIssuing 100 ⟨"second", some "r2", none⟩), (false, envRefusing)]

theorem run_of_askedBy (turns : List (Bool × Env bareCrates))
    (asked : List (Exchange (locks bareCrates))) (h : askedBy turns = some asked) :
    ∃ pool : SharedManager bareCrates Bool,
      Transition.Run Pool.step (start expiredManager) turns pool ∧ pool.asked = asked := by
  obtain ⟨pool, hexec, hasked⟩ := Option.map_eq_some_iff.mp h
  exact ⟨pool, Transition.run_of_exec hexec, hasked⟩

abbrev expiredClient : OAuthClient :=
  ⟨"mcp-client", none, "https://example.com/authorize", "https://example.com/token",
    "https://example.com/mcp"⟩

theorem refresh_token_spent_once_iff_inTurn : ∃ pool : SharedManager bareCrates Bool,
    Transition.Run Pool.step (start expiredManager) turnsInTurn pool ∧
    (pool.SpentOnce ↔
      Transition.Always Pool.step PresentsStored (start (ι := Bool) expiredManager) turnsInTurn) := by
  obtain ⟨pool, hrun, hasked⟩ := run_of_askedBy turnsInTurn
    [⟨.now .expiryChecked, 100⟩,
      ⟨.exchangeRefreshToken expiredClient () "refresh", .ok ⟨"second", some "r2", none⟩⟩,
      ⟨.now .expiryChecked, 100⟩,
      ⟨.exchangeRefreshToken expiredClient () "r2", .ok ⟨"third", some "r3", none⟩⟩] rfl
  refine ⟨pool, hrun, refresh_token_spent_once_iff hrun ⟨?_, ?_⟩⟩
  · simp [hasked, issued, spent]
  · simp [hasked, issued, spent]

/-- The second task presents the refresh token of the first one, which has been answered. -/
theorem refresh_token_spent_twice : ∃ pool : SharedManager bareCrates Bool,
    Transition.Run Pool.step (start expiredManager) turnsTogether pool ∧ Rotating pool.asked ∧
    ¬ pool.SpentOnce := by
  obtain ⟨pool, hrun, hasked⟩ := run_of_askedBy turnsTogether
    [⟨.now .expiryChecked, 100⟩, ⟨.now .expiryChecked, 100⟩,
      ⟨.exchangeRefreshToken expiredClient () "refresh", .ok ⟨"second", some "r2", none⟩⟩,
      ⟨.exchangeRefreshToken expiredClient () "refresh", .error "invalid_grant"⟩] rfl
  refine ⟨pool, hrun, ⟨?_, ?_⟩, ?_⟩
  · simp [hasked, issued, spent]
  · simp [hasked, issued, spent]
  · simp [SpentOnce, hasked, presented, spent]

end Rmcp.Auth
