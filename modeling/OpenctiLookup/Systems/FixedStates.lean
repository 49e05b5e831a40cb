import Mathlib.Logic.Relation
import OpenctiLookup.Api
import OpenctiLookup.Systems.ValidityWindows

/-! The states of a backend in which lookups do not change what later ones answer: those whose
cache holds what OpenCTI would give. -/
namespace OpenctiLookup
open Python

namespace LookupBackend

variable {σ : Type} (backend : LookupBackend σ)

def After : σ → σ → Prop :=
  Relation.ReflTransGen fun s s' => ∃ value result, backend value s = .ok (result, s')

def payload (s : σ) (value : Normalized) : Py Payload := (backend value s).map (·.1.payload)

/-- Lookups do not change what later ones answer, and every answer says something. -/
structure Fixed (s : σ) : Prop where
  same : ∀ s', backend.After s s' → ∀ value, backend.payload s' value = backend.payload s value
  nonempty : ∀ value payload, backend.payload s value = .ok payload → payload ≠ []

def Comes (answer : Py Payload) (left : σ → Prop) (looked : Py (LookupResult × σ)) : Prop :=
  (∃ result s', looked = .ok (result, s') ∧ left s' ∧ answer = .ok result.payload) ∨
    ∃ fault, looked = .error fault ∧ answer = .error fault

/-- The backend on which each lookup finds the state `s`. -/
def frozen (s : σ) : LookupBackend σ := fun value _ =>
  (backend value s).map fun answer => (answer.1, s)

end LookupBackend

section FixedStates

variable {σ : Type}

/-- A state is fixed if an invariant of the lookups holds in it that settles the answers. -/
theorem fixed_of_invariant {backend : LookupBackend σ} (invariant : σ → Prop)
    (answer : Normalized → Py Payload)
    (hstep : ∀ s, invariant s → ∀ value,
      LookupBackend.Comes (answer value) invariant (backend value s))
    (hnonempty : ∀ value payload, answer value = .ok payload → payload ≠ []) {s : σ}
    (h : invariant s) : backend.Fixed s := by
  have hpayload : ∀ s', invariant s' → ∀ value, backend.payload s' value = answer value := by
    intro s' hinvariant value
    unfold LookupBackend.payload
    rcases hstep s' hinvariant value with
      ⟨result, s'', hlookup, -, hanswer⟩ | ⟨fault, hlookup, hanswer⟩
    · rw [hlookup, hanswer]
      rfl
    · rw [hlookup, hanswer]
      rfl
  have hkept : ∀ s', backend.After s s' → invariant s' := by
    intro s' hafter
    induction hafter with
    | refl => exact h
    | tail _ hlookup ih =>
        obtain ⟨value, result, hlookup⟩ := hlookup
        rcases hstep _ ih value with ⟨_, _, hfound, hleft, -⟩ | ⟨fault, hfault, -⟩
        · cases hfound.symm.trans hlookup
          exact hleft
        · cases hfault.symm.trans hlookup
  constructor
  · intro s' hafter value
    rw [hpayload s' (hkept s' hafter), hpayload s h]
  · intro value payload hanswer
    rw [hpayload s h] at hanswer
    exact hnonempty value payload hanswer

theorem fixed_frozen {backend : LookupBackend σ} {s : σ}
    (hnonempty : ∀ value payload, backend.payload s value = .ok payload → payload ≠ []) (s' : σ) :
    (backend.frozen s).Fixed s' := by
  refine fixed_of_invariant (fun _ => True) (backend.payload s) (fun _ _ value => ?_) hnonempty
    trivial
  unfold LookupBackend.payload LookupBackend.frozen
  cases backend value s with
  | error fault => exact .inr ⟨fault, rfl, rfl⟩
  | ok answer => exact .inl ⟨answer.1, s, rfl, trivial, rfl⟩

variable {rt : Runtime} {settings : Settings} {client : Client} {now mono : ℚ}

theorem nonempty_of_fetch {value : Normalized} {payload : Payload}
    (h : LiveBackend.fetch rt settings client now value = .ok payload) : payload ≠ [] := by
  rcases settles_fetch h with ⟨-, hfound⟩ | ⟨-, rfl⟩
  · rintro rfl
    cases hfound
  · exact List.cons_ne_nil _ _

namespace LiveBackend

variable (rt settings client now) in
def Coherent (backend : LiveBackend) : Prop :=
  ∀ value, ∀ e ∈ backend.cache.data, e.1 = cacheKey settings value →
    fetch rt settings client now value = .ok e.2.1

variable (rt settings client now) in
def settled (value : Normalized) : Py Payload :=
  if !value.lookupable then .ok miss
  else
    match fetch rt settings client now value with
    | .ok payload => .ok payload
    | .error fault => if isUpstreamError fault then .ok degradedPayload else .error fault

/-- With a coherent cache, a lookup answers as a fetch would and leaves the cache coherent. -/
theorem lookup_of_coherent (mono : ℚ) {backend : LiveBackend}
    (hcoherent : backend.Coherent rt settings client now) (value : Normalized) :
    LookupBackend.Comes (settled rt settings client now value) (Coherent rt settings client now)
      (lookup rt settings client now mono backend value) := by
  have hget := fun cached =>
    @PayloadCache.get_fst_eq_some_iff Payload backend.cache (cacheKey settings value) mono cached
  have hkept : Coherent rt settings client now
      ⟨(backend.cache.get (cacheKey settings value) mono).2⟩ := fun other e he hkey =>
    hcoherent other e (PayloadCache.mem_get he) hkey
  unfold lookup settled
  cases value.lookupable with
  | false => exact .inl ⟨⟨miss, "skip"⟩, backend, rfl, hcoherent, rfl⟩
  | true =>
      rw [Bool.not_true, if_neg Bool.false_ne_true, if_neg Bool.false_ne_true]
      dsimp only
      cases hpair : backend.cache.get (cacheKey settings value) mono with
      | mk cached cache =>
          rw [hpair] at hget hkept
          cases cached with
          | some cached =>
              obtain ⟨expiresAt, hentry, -⟩ := (hget cached).mp rfl
              have hfetch := hcoherent value _ (PayloadCache.mem_of_entry hentry) rfl
              rw [hfetch]
              exact .inl ⟨⟨cached, "payload_cache"⟩, ⟨cache⟩, rfl, hkept, rfl⟩
          | none =>
              cases hfetch : fetch rt settings client now value with
              | ok payload =>
                  refine .inl ⟨⟨payload, "opencti"⟩,
                    ⟨cache.set (cacheKey settings value) payload mono⟩, rfl, ?_, rfl⟩
                  intro other e he hkey
                  rcases PayloadCache.mem_set he with rfl | hold
                  · rw [← fetch_of_cacheKey client now hkey]
                    exact hfetch
                  · exact hkept other e hold hkey
              | error fault =>
                  dsimp only
                  split
                  · exact .inl ⟨⟨degradedPayload, "degraded"⟩, ⟨cache⟩, rfl, hkept, rfl⟩
                  · exact .inr ⟨fault, rfl, rfl⟩

theorem nonempty_of_settled (value : Normalized) (payload : Payload)
    (h : settled rt settings client now value = .ok payload) : payload ≠ [] := by
  unfold settled at h
  split at h
  · cases h
    exact List.cons_ne_nil _ _
  · split at h
    · next hfetch =>
        cases h
        exact nonempty_of_fetch hfetch
    · split at h
      · cases h
        exact List.cons_ne_nil _ _
      · cases h

theorem fixed_of_coherent {s : LiveBackend} (hcoherent : s.Coherent rt settings client now) :
    (LiveBackend.backend rt settings client now mono).Fixed s :=
  fixed_of_invariant _ (settled rt settings client now)
    (fun _ h value => lookup_of_coherent mono h value) nonempty_of_settled hcoherent

end LiveBackend

namespace SplitBackend

variable (rt settings client now) in
def settled (backend : SplitBackend) (value : Normalized) : Py Payload :=
  match backend.route rt settings value with
  | .membershipMiss => .ok miss
  | .live => LiveBackend.settled rt settings client now value

theorem lookup_of_coherent (mono : ℚ) {backend : SplitBackend}
    (hcoherent : backend.live.Coherent rt settings client now) (value : Normalized) :
    LookupBackend.Comes (backend.settled rt settings client now value)
      (fun s => s.live.Coherent rt settings client now ∧ ∃ live, s = { backend with live := live })
      (lookup rt settings client now mono backend value) := by
  unfold lookup settled
  cases hlookupable : value.lookupable with
  | false =>
      refine .inl ⟨⟨miss, "skip"⟩, backend, rfl, ⟨hcoherent, backend.live, rfl⟩, ?_⟩
      cases backend.route rt settings value with
      | membershipMiss => rfl
      | live => simp [LiveBackend.settled, hlookupable]
  | true =>
      rw [Bool.not_true, if_neg Bool.false_ne_true]
      cases backend.route rt settings value with
      | membershipMiss =>
          exact .inl ⟨⟨miss, "membership"⟩, backend, rfl, ⟨hcoherent, backend.live, rfl⟩, rfl⟩
      | live =>
          rcases LiveBackend.lookup_of_coherent mono hcoherent value with
            ⟨result, live, hlookup, hlive, hsettled⟩ | ⟨fault, hlookup, hsettled⟩
          · exact .inl ⟨result, { backend with live := live }, by rw [hlookup]; rfl,
              ⟨hlive, live, rfl⟩, hsettled⟩
          · exact .inr ⟨fault, by rw [hlookup]; rfl, hsettled⟩

theorem nonempty_of_settled (backend : SplitBackend) (value : Normalized) (payload : Payload)
    (h : backend.settled rt settings client now value = .ok payload) : payload ≠ [] := by
  unfold settled at h
  split at h
  · cases h
    exact List.cons_ne_nil _ _
  · exact LiveBackend.nonempty_of_settled value payload h

theorem fixed_of_coherent {s : SplitBackend} (hcoherent : s.live.Coherent rt settings client now) :
    (SplitBackend.backend rt settings client now mono).Fixed s := by
  refine fixed_of_invariant (fun s' => s'.live.Coherent rt settings client now ∧
    ∃ live, s' = { s with live := live }) (s.settled rt settings client now) ?_
    (nonempty_of_settled s) ⟨hcoherent, s.live, rfl⟩
  rintro _ ⟨hlive, live, rfl⟩ value
  exact lookup_of_coherent mono hlive value

end SplitBackend

end FixedStates

end OpenctiLookup
