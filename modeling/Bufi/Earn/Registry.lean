import Bufi.Earn.Module
import Mathlib.Data.List.Sort

/-!
# Sets of vaults under their hash

A set of vaults is registered as a sorted list, so a set is one list and has one hash
(`configHash_eq_iff`).  `Has K s hash l` says that the three mappings hold the entries of
`l` under a hash, and nothing else; an unused hash has the empty list.  The loop of
`setConfig` adds its entries one by one where the hash is unused (`has_foldlM`), and
changes nothing where the list is there already (`foldlM_of_has`): another list has
another hash.

So every hash holds nothing or its own list (`stored_of_run`), a list that is there
stays (`has_of_run`), and the owner cannot send the deposits of an account
elsewhere.  `contentAddressed` puts this together.
-/

namespace Bufi.Earn

open Bufi.Evm

/-! ### Sorted lists -/

section Sorted

variable {a b c : ConfigInput} {l l' : List ConfigInput}

theorem ConfigInput.Before.trans (h : a.Before b) (h' : b.Before c) : a.Before c := by
  rcases h with h | ⟨h, hlt⟩
  · rcases h' with h' | ⟨h', -⟩
    · exact .inl (BitVec.lt_trans h h')
    · exact .inl (h' ▸ h)
  · rcases h' with h' | ⟨h', hlt'⟩
    · exact .inl (h ▸ h')
    · exact .inr ⟨h.trans h', BitVec.lt_trans hlt hlt'⟩

theorem ConfigInput.Before.ne (h : a.Before b) : ¬ (a.chainId = b.chainId ∧ a.token = b.token) := by
  rintro ⟨hchain, htoken⟩
  rcases h with h | ⟨-, h⟩
  · rw [hchain] at h
    exact BitVec.lt_irrefl _ h
  · rw [htoken] at h
    exact BitVec.lt_irrefl _ h

instance : IsTrans ConfigInput ConfigInput.Before := ⟨fun _ _ _ h h' => h.trans h'⟩

instance : Std.Irrefl ConfigInput.Before := ⟨fun _ h => h.ne ⟨rfl, rfl⟩⟩

instance : Std.Antisymm ConfigInput.Before :=
  ⟨fun _ _ h h' => absurd ⟨rfl, rfl⟩ (h.trans h').ne⟩

/-- The lists that `setConfig` takes. -/
def Sorted (l : List ConfigInput) : Prop := l.Pairwise ConfigInput.Before

theorem checkSorted_eq_ok (i : ℕ) (u : Unit) : checkSorted i l = .ok u ↔ Sorted l := by
  induction l generalizing i with
  | nil => exact iff_of_true rfl .nil
  | cons a l ih =>
    cases l with
    | nil => exact iff_of_true rfl (List.pairwise_singleton _ a)
    | cons b rest =>
      rw [checkSorted, bind_eq_ok]
      simp only [require_eq_ok, exists_const, ih, Sorted]
      rw [← List.isChain_iff_pairwise, ← List.isChain_iff_pairwise, List.isChain_cons_cons]

theorem Sorted.eq (h : Sorted l) (h' : Sorted l') (hmem : ∀ e, e ∈ l ↔ e ∈ l') : l = l' :=
  List.Pairwise.eq_of_mem_iff h h' hmem

end Sorted

/-! ### Hashes -/

section Hashes

variable {W : Type} {K : Keccak W}

theorem flatMap_words_inj : ∀ {l l' : List ConfigInput},
    l.flatMap (ConfigInput.words K) = l'.flatMap (ConfigInput.words K) → l = l' := by
  intro l
  induction l with
  | nil =>
    intro l' h
    cases l' with
    | nil => rfl
    | cons b l' => cases h
  | cons a l ih =>
    intro l' h
    cases l' with
    | nil => cases h
    | cons b l' =>
      simp only [List.flatMap_cons, ConfigInput.words, List.cons_append, List.nil_append,
        List.cons.injEq] at h
      obtain ⟨hchain, htoken, hvault, hrest⟩ := h
      have hab : a = b := by
        cases a
        cases b
        simp only [ConfigInput.mk.injEq]
        exact ⟨K.word_inj hchain, K.addr_inj htoken, K.addr_inj hvault⟩
      rw [hab, ih hrest]

theorem configHash_inj {l l' : List ConfigInput} (h : configHash K l = configHash K l') :
    l = l' := by
  have hwords := K.hashWords_inj h
  simp only [List.cons.injEq] at hwords
  exact flatMap_words_inj hwords.2.2

theorem configHashChainId_inj {h h' : W} {c c' : Uint256}
    (heq : configHashChainId K h c = configHashChainId K h' c') : h = h' ∧ c = c' := by
  have hwords := K.hashWords_inj heq
  simp only [List.cons.injEq, and_true] at hwords
  exact ⟨hwords.1, K.word_inj hwords.2⟩

/-- **One hash for one set**: sorted lists have one hash if and only if they have the same
entries. -/
theorem configHash_eq_iff {l l' : List ConfigInput} (hl : Sorted l) (hl' : Sorted l') :
    configHash K l = configHash K l' ↔ ∀ e, e ∈ l ↔ e ∈ l' := by
  constructor
  · intro h e
    rw [configHash_inj h]
  · intro h
    rw [hl.eq hl' h]

end Hashes

/-! ### What is stored under a hash -/

/-- The vault of the entry for a token on a chain, or zero. -/
def vaultIn (l : List ConfigInput) (chainId : Uint256) (token : Address) : Address :=
  ((l.find? (fun e => e.chainId = chainId ∧ e.token = token)).map ConfigInput.vault).getD 0

/-- The tokens of a chain. -/
def tokensOn (l : List ConfigInput) (chainId : Uint256) : List Address :=
  (l.filter (fun e => e.chainId = chainId)).map ConfigInput.token

theorem mem_tokensOn {l : List ConfigInput} {c : Uint256} {t : Address} :
    t ∈ tokensOn l c ↔ ∃ e ∈ l, e.chainId = c ∧ e.token = t := by
  simp [tokensOn, and_assoc]

theorem tokensOn_concat (l : List ConfigInput) (e : ConfigInput) (c : Uint256) :
    tokensOn (l ++ [e]) c = tokensOn l c ++ if e.chainId = c then [e.token] else [] := by
  rw [tokensOn, List.filter_append, List.map_append, tokensOn]
  by_cases h : e.chainId = c
  · simp [h]
  · simp [h]

theorem vaultIn_of_mem {l : List ConfigInput} (hl : Sorted l) {e : ConfigInput} (he : e ∈ l) :
    vaultIn l e.chainId e.token = e.vault := by
  induction l with
  | nil => exact absurd he List.not_mem_nil
  | cons a l ih =>
    rw [Sorted, List.pairwise_cons] at hl
    rcases List.mem_cons.mp he with rfl | he
    · simp [vaultIn]
    · have hne := (hl.1 e he).ne
      rw [vaultIn, List.find?_cons_of_neg (by simpa using hne)]
      exact ih hl.2 he

theorem vaultIn_concat {l : List ConfigInput} {e : ConfigInput} (c : Uint256) (t : Address)
    (h : e.token ∉ tokensOn l e.chainId) :
    vaultIn (l ++ [e]) c t = if e.chainId = c ∧ e.token = t then e.vault else vaultIn l c t := by
  rw [vaultIn, List.find?_append]
  by_cases hkey : e.chainId = c ∧ e.token = t
  · obtain ⟨rfl, rfl⟩ := hkey
    have hnone : l.find? (fun a => a.chainId = e.chainId ∧ a.token = e.token) = none := by
      rw [List.find?_eq_none]
      intro a ha hkey
      rw [decide_eq_true_iff] at hkey
      exact h (mem_tokensOn.mpr ⟨a, ha, hkey⟩)
    rw [hnone]
    simp
  · rw [if_neg hkey, vaultIn]
    simp [hkey]

variable {W : Type} {K : Keccak W} {s s' : State W} {h : W}

/-- The mappings hold the entries of `l` under a hash, and no others. -/
structure Has (K : Keccak W) (s : State W) (h : W) (l : List ConfigInput) : Prop where
  config : ∀ c t, s.config h c t = vaultIn l c t
  tokens : ∀ c, s.tokenList (configHashChainId K h c) = tokensOn l c
  listed : ∀ c t, s.tokenListed (configHashChainId K h c) t = true ↔ t ∈ tokensOn l c
  capped : ∀ c, (tokensOn l c).length ≤ MAX_TOKENS

/-- Two states hold the same under a hash. -/
structure SameUnder (K : Keccak W) (h : W) (s s' : State W) : Prop where
  config : s'.config h = s.config h
  tokenList : ∀ c, s'.tokenList (configHashChainId K h c) = s.tokenList (configHashChainId K h c)
  tokenListed : ∀ c,
    s'.tokenListed (configHashChainId K h c) = s.tokenListed (configHashChainId K h c)

theorem SameUnder.refl : SameUnder K h s s := ⟨rfl, fun _ => rfl, fun _ => rfl⟩

theorem SameUnder.trans {s'' : State W} (h₁ : SameUnder K h s s') (h₂ : SameUnder K h s' s'') :
    SameUnder K h s s'' :=
  ⟨h₂.config.trans h₁.config, fun c => (h₂.tokenList c).trans (h₁.tokenList c),
    fun c => (h₂.tokenListed c).trans (h₁.tokenListed c)⟩

theorem Has.same {l : List ConfigInput} (hs : Has K s h l) (hsame : SameUnder K h s s') :
    Has K s' h l := by
  constructor
  · intro c t
    rw [hsame.config]
    exact hs.config c t
  · intro c
    rw [hsame.tokenList]
    exact hs.tokens c
  · intro c t
    rw [hsame.tokenListed]
    exact hs.listed c t
  · exact hs.capped

/-! ### The loop of `setConfig` -/

variable [DecidableEq W] {e : ConfigInput} {l : List ConfigInput}

/-- What one turn does: the token is listed already, or there is room for it. -/
theorem setEntry_eq_ok :
    setEntry K h s e = .ok s' ↔
      (s.tokenListed (configHashChainId K h e.chainId) e.token = true ∧ s' = setVault h e s) ∨
      (s.tokenListed (configHashChainId K h e.chainId) e.token = false ∧
        (s.tokenList (configHashChainId K h e.chainId)).length < MAX_TOKENS ∧
        s' = setVault h e { s with
          tokenList := Function.update s.tokenList (configHashChainId K h e.chainId)
            (s.tokenList (configHashChainId K h e.chainId) ++ [e.token])
          tokenListed := Function.update s.tokenListed (configHashChainId K h e.chainId)
            (Function.update (s.tokenListed (configHashChainId K h e.chainId)) e.token true) }) := by
  rw [setEntry, bind_eq_ok, listToken]
  cases hlisted : s.tokenListed (configHashChainId K h e.chainId) e.token with
  | true => simp [pure_eq_ok]
  | false => simp [bind_eq_ok, pure_eq_ok, -bind_pure_comp]

theorem setVault_config_of_ne {h' : W} (hne : h' ≠ h) :
    (setVault h e s).config h' = s.config h' := by
  rw [setVault]
  exact Function.update_of_ne hne _ _

theorem setVault_config (c : Uint256) (t : Address) :
    (setVault h e s).config h c t = if e.chainId = c ∧ e.token = t then e.vault
      else s.config h c t := by
  simp only [setVault, Function.update_self]
  by_cases hc : c = e.chainId
  · subst hc
    by_cases ht : t = e.token
    · subst ht
      simp
    · simp [Function.update_of_ne ht, Ne.symm ht]
  · rw [Function.update_of_ne hc, if_neg (fun hkey => hc hkey.1.symm)]

theorem sameUnder_setEntry {h' : W} (hne : h' ≠ h) (hok : setEntry K h s e = .ok s') :
    SameUnder K h' s s' := by
  have hkey : ∀ c, configHashChainId K h' c ≠ configHashChainId K h e.chainId :=
    fun c heq => hne (configHashChainId_inj heq).1
  rcases setEntry_eq_ok.mp hok with ⟨-, rfl⟩ | ⟨-, -, rfl⟩
  · exact ⟨setVault_config_of_ne hne, fun _ => rfl, fun _ => rfl⟩
  · exact ⟨setVault_config_of_ne hne, fun c => Function.update_of_ne (hkey c) _ _,
      fun c => Function.update_of_ne (hkey c) _ _⟩

/-- An entry of a new key. -/
theorem has_setEntry (hs : Has K s h l) (hnew : e.token ∉ tokensOn l e.chainId)
    (hok : setEntry K h s e = .ok s') : Has K s' h (l ++ [e]) := by
  have hunlisted : s.tokenListed (configHashChainId K h e.chainId) e.token = false := by
    rw [← Bool.not_eq_true, hs.listed]
    exact hnew
  rcases setEntry_eq_ok.mp hok with ⟨hlisted, -⟩ | ⟨-, hroom, rfl⟩
  · rw [hunlisted] at hlisted
    cases hlisted
  rw [hs.tokens] at hroom
  have hkey : ∀ c, c ≠ e.chainId → configHashChainId K h c ≠ configHashChainId K h e.chainId :=
    fun c hc heq => hc (configHashChainId_inj heq).2
  constructor
  · intro c t
    rw [setVault_config, vaultIn_concat c t hnew]
    congr 1
    exact hs.config c t
  · intro c
    rw [tokensOn_concat]
    by_cases hc : c = e.chainId
    · subst hc
      simp [setVault, hs.tokens]
    · rw [if_neg (Ne.symm hc), List.append_nil, ← hs.tokens c]
      exact Function.update_of_ne (hkey c hc) _ _
  · intro c t
    rw [tokensOn_concat]
    by_cases hc : c = e.chainId
    · subst hc
      by_cases ht : t = e.token
      · subst ht
        simp [setVault]
      · simp [setVault, hs.listed, ht]
    · rw [if_neg (Ne.symm hc), List.append_nil, ← hs.listed c t]
      simp [setVault, Function.update_of_ne (hkey c hc)]
  · intro c
    rw [tokensOn_concat, List.length_append]
    have hcap := hs.capped c
    by_cases hc : e.chainId = c
    · subst hc
      simpa [Nat.succ_le_iff] using hroom
    · simpa [hc] using hcap

/-- An entry that is there. -/
theorem setEntry_of_has (hs : Has K s h l) (hl : Sorted l) (he : e ∈ l) :
    setEntry K h s e = .ok s := by
  have hlisted := (hs.listed e.chainId e.token).mpr (mem_tokensOn.mpr ⟨e, he, rfl, rfl⟩)
  refine setEntry_eq_ok.mpr (.inl ⟨hlisted, ?_⟩)
  have hvault : e.vault = s.config h e.chainId e.token := by
    rw [hs.config, vaultIn_of_mem hl he]
  simp [setVault, hvault]

/-- **The loop adds the entries** to those that are there. -/
theorem has_foldlM {rest : List ConfigInput} (hl : Sorted (l ++ rest)) (hs : Has K s h l)
    (hok : rest.foldlM (setEntry K h) s = .ok s') : Has K s' h (l ++ rest) := by
  induction rest generalizing l s with
  | nil =>
    rw [foldlM_nil_eq_ok] at hok
    rw [hok, List.append_nil]
    exact hs
  | cons e rest ih =>
    obtain ⟨m, hm, hok⟩ := foldlM_cons_eq_ok.mp hok
    have hnew : e.token ∉ tokensOn l e.chainId := by
      intro hmem
      obtain ⟨a, ha, hkey⟩ := mem_tokensOn.mp hmem
      exact ((List.pairwise_append.mp hl).2.2 a ha e List.mem_cons_self).ne hkey
    rw [List.append_cons] at hl ⊢
    exact ih hl (has_setEntry hs hnew hm) hok

/-- The loop over entries that are there changes nothing. -/
theorem foldlM_of_has (hl : Sorted l) (hs : Has K s h l) {rest : List ConfigInput}
    (hrest : ∀ e ∈ rest, e ∈ l) : rest.foldlM (setEntry K h) s = .ok s := by
  induction rest with
  | nil => rfl
  | cons e rest ih =>
    rw [List.forall_mem_cons] at hrest
    exact foldlM_cons_eq_ok.mpr ⟨s, setEntry_of_has hs hl hrest.1, ih hrest.2⟩

theorem sameUnder_foldlM {h' : W} (hne : h' ≠ h)
    (hok : l.foldlM (setEntry K h) s = .ok s') : SameUnder K h' s s' :=
  foldlM_invariant (P := fun t => SameUnder K h' s t) hok .refl
    (fun _ _ _ hsame hturn => hsame.trans (sameUnder_setEntry hne hturn))

/-! ### Calls -/

theorem setConfig_eq_ok {sender : Address} {r : W × State W} :
    setConfig K sender l s = .ok r ↔ sender = s.owner ∧ l ≠ [] ∧ Sorted l ∧
      r.1 = configHash K l ∧ l.foldlM (setEntry K (configHash K l)) s = .ok r.2 := by
  simp only [setConfig, onlyOwner, bind_eq_ok, require_eq_ok, exists_const, checkSorted_eq_ok,
    pure_eq_ok]
  constructor
  · rintro ⟨howner, hne, hsorted, t, ht, rfl⟩
    exact ⟨howner, hne, hsorted, rfl, ht⟩
  · rintro ⟨howner, hne, hsorted, hr, ht⟩
    exact ⟨howner, hne, hsorted, r.2, ht, Prod.ext hr rfl⟩

/-- What a call does to the sets: it registers a list under its hash, or nothing. -/
theorem earnStep_sets {a : Action W} (hstep : earnStep K s a = some s') :
    (∃ l, l ≠ [] ∧ Sorted l ∧ l.foldlM (setEntry K (configHash K l)) s = .ok s') ∨
      ∀ h, SameUnder K h s s' := by
  rw [earnStep, toOption_eq_some] at hstep
  cases a with
  | setConfig sender l =>
    obtain ⟨r, hr, rfl⟩ := map_eq_ok.mp hstep
    obtain ⟨-, hne, hsorted, -, hfold⟩ := setConfig_eq_ok.mp hr
    exact .inl ⟨l, hne, hsorted, hfold⟩
  | addAuthorizedRelayer sender newRelayer =>
    simp only [act, addAuthorizedRelayer, onlyOwner, bind_eq_ok, require_eq_ok, exists_const,
      pure_eq_ok] at hstep
    rw [hstep.2]
    exact .inr fun h => ⟨rfl, fun _ => rfl, fun _ => rfl⟩
  | removeAuthorizedRelayer sender relayer =>
    simp only [act, removeAuthorizedRelayer, onlyOwner, bind_eq_ok, require_eq_ok, exists_const,
      pure_eq_ok] at hstep
    rw [hstep.2]
    exact .inr fun h => ⟨rfl, fun _ => rfl, fun _ => rfl⟩
  | changeConfigHash account newConfigHash =>
    simp only [act, changeConfigHash, bind_eq_ok, require_eq_ok, exists_const, pure_eq_ok] at hstep
    rw [hstep.2.2]
    exact .inr fun h => ⟨rfl, fun _ => rfl, fun _ => rfl⟩
  | onInstall account data =>
    simp only [act, onInstall, bind_eq_ok, require_eq_ok, orRevert_eq_ok, exists_const,
      pure_eq_ok] at hstep
    obtain ⟨-, hash, -, -, rfl⟩ := hstep
    exact .inr fun h => ⟨rfl, fun _ => rfl, fun _ => rfl⟩
  | onUninstall account =>
    rw [act, pure_eq_ok] at hstep
    rw [hstep]
    exact .inr fun h => ⟨rfl, fun _ => rfl, fun _ => rfl⟩

/-! ### Runs -/

/-- A hash holds nothing, or the list that it is the hash of. -/
def Stored (K : Keccak W) (s : State W) (h : W) : Prop :=
  Has K s h [] ∨ ∃ l, l ≠ [] ∧ Sorted l ∧ configHash K l = h ∧ Has K s h l

omit [DecidableEq W] in
theorem has_nil_initial (relayer owner : Address) : Has K (State.initial K relayer owner) h [] :=
  ⟨fun _ _ => rfl, fun _ => rfl, fun _ _ => by simp [State.initial, tokensOn],
    fun _ => Nat.zero_le _⟩

/-- A list that is registered stays as it is. -/
theorem has_step {a : Action W} (hl : Sorted l) (hhash : configHash K l = h) (hs : Has K s h l)
    (hstep : earnStep K s a = some s') : Has K s' h l := by
  rcases earnStep_sets hstep with ⟨l', -, -, hfold⟩ | hsame
  · by_cases hh : h = configHash K l'
    · have hll : l = l' := configHash_inj (hhash.trans hh)
      subst hll
      rw [← hh, foldlM_of_has hl hs (fun _ he => he)] at hfold
      injection hfold with hfold
      rwa [← hfold]
    · exact hs.same (sameUnder_foldlM hh hfold)
  · exact hs.same (hsame h)

theorem stored_step {a : Action W} (hs : Stored K s h) (hstep : earnStep K s a = some s') :
    Stored K s' h := by
  rcases hs with hs | ⟨l, hne, hl, hhash, hs⟩
  · rcases earnStep_sets hstep with ⟨l, hne, hl, hfold⟩ | hsame
    · by_cases hh : h = configHash K l
      · rw [← hh] at hfold
        exact .inr ⟨l, hne, hl, hh.symm, has_foldlM (l := []) hl hs hfold⟩
      · exact .inl (hs.same (sameUnder_foldlM hh hfold))
    · exact .inl (hs.same (hsame h))
  · exact .inr ⟨l, hne, hl, hhash, has_step hl hhash hs hstep⟩

/-- **Every hash holds nothing or its own list**, after every run. -/
theorem stored_of_run {relayer owner : Address} {history : List (Call (State W) (Action W))}
    (hr : Run (earnStep K) (State.initial K relayer owner) history s) (h : W) : Stored K s h :=
  hr.invariant (P := fun s => Stored K s h) (.inl (has_nil_initial relayer owner))
    (fun _ _ _ hs hstep => stored_step hs hstep)

/-- **A registered list stays**, in every run from there. -/
theorem has_of_run {later : List (Call (State W) (Action W))}
    (hr : Run (earnStep K) s later s') (hl : Sorted l) (hhash : configHash K l = h)
    (hs : Has K s h l) : Has K s' h l :=
  hr.invariant (P := fun s => Has K s h l) hs (fun _ _ _ hs hstep => has_step hl hhash hs hstep)

/-! ### Content addressing -/

/-- A list has been registered under the hash. -/
def Written (K : Keccak W) (s : State W) (h : W) : Prop :=
  ∃ c, s.tokenList (configHashChainId K h c) ≠ []

omit [DecidableEq W] in
theorem Has.written (hs : Has K s h l) (hne : l ≠ []) : Written K s h := by
  obtain ⟨e, he⟩ := List.exists_mem_of_ne_nil l hne
  refine ⟨e.chainId, ?_⟩
  rw [hs.tokens]
  exact List.ne_nil_of_mem (mem_tokensOn.mpr ⟨e, he, rfl, rfl⟩)

omit [DecidableEq W] in
theorem Has.not_written (hs : Has K s h []) : ¬ Written K s h := by
  rintro ⟨c, hc⟩
  exact hc (hs.tokens c)

/-- What the sets of the module are for the accounts that adopt them. -/
structure ContentAddressed (K : Keccak W) (s : State W) : Prop where
  /-- A hash is unused, or it holds the one sorted list with this hash. -/
  contents : ∀ h, (¬ Written K s h ∧ ∀ c t, s.config h c t = 0) ∨
    (Written K s h ∧ ∃ l, Sorted l ∧ configHash K l = h ∧
      (∀ l', Sorted l' → configHash K l' = h → l' = l) ∧ ∀ c t, s.config h c t = vaultIn l c t)
  /-- What a hash holds does not change again. -/
  kept : ∀ later s', Run (earnStep K) s later s' → ∀ h, Written K s h →
    Written K s' h ∧ s'.config h = s.config h
  /-- `setConfig` gives its hash by the set of its entries, and registers it. -/
  hashes : ∀ sender l r, setConfig K sender l s = .ok r → Written K r.2 r.1 ∧
    ∀ s' sender' l' r', setConfig K sender' l' s' = .ok r' →
      (r.1 = r'.1 ↔ ∀ e, e ∈ l ↔ e ∈ l')
  /-- The vault of a token does not change while the adopted hash is the same. -/
  vault : ∀ later s', Run (earnStep K) s later s' → ∀ account,
    s'.accountConfig account = s.accountConfig account → ∀ c token v v',
    resolveVault K s c account token = .ok v → resolveVault K s' c account token = .ok v' → v' = v
  /-- The configs of an account are the entries of its list for the chain, by token. -/
  listed : ∀ c account,
    ((getAllConfigs K s c account).map ConfigWithToken.token).Pairwise (· < ·) ∧
    (getAllConfigs K s c account).length ≤ MAX_TOKENS ∧
    (((s.accountConfig account = K.word 0 ∨ ¬ Written K s (s.accountConfig account)) ∧
        getAllConfigs K s c account = []) ∨
      ∃ l, Sorted l ∧ configHash K l = s.accountConfig account ∧
        (∀ c t, s.config (s.accountConfig account) c t = vaultIn l c t) ∧
        getAllConfigs K s c account =
          (l.filter (fun e => e.chainId = c)).map (fun e => ⟨e.token, e.vault⟩))

section Fields

omit [DecidableEq W] in
theorem Has.config_eq {s₁ s₂ : State W} (h₁ : Has K s₁ h l) (h₂ : Has K s₂ h l) :
    s₂.config h = s₁.config h := by
  funext c t
  rw [h₁.config, h₂.config]

omit [DecidableEq W] in
/-- A hash that is used holds its list. -/
theorem Stored.of_written (hs : Stored K s h) (hw : Written K s h) :
    ∃ l, l ≠ [] ∧ Sorted l ∧ configHash K l = h ∧ Has K s h l := by
  rcases hs with hs | hs
  · exact absurd hw hs.not_written
  · exact hs

omit [DecidableEq W] in
theorem contents_of_stored (hs : Stored K s h) :
    (¬ Written K s h ∧ ∀ c t, s.config h c t = 0) ∨
    (Written K s h ∧ ∃ l, Sorted l ∧ configHash K l = h ∧
      (∀ l', Sorted l' → configHash K l' = h → l' = l) ∧
      ∀ c t, s.config h c t = vaultIn l c t) := by
  rcases hs with hs | ⟨l, hne, hl, hhash, hs⟩
  · exact .inl ⟨hs.not_written, hs.config⟩
  · refine .inr ⟨hs.written hne, l, hl, hhash, ?_, hs.config⟩
    intro l' _ hhash'
    exact configHash_inj (hhash'.trans hhash.symm)

theorem kept_of_stored (hs : Stored K s h) {later : List (Call (State W) (Action W))}
    (hr : Run (earnStep K) s later s') (hw : Written K s h) :
    Written K s' h ∧ s'.config h = s.config h := by
  obtain ⟨l, hne, hl, hhash, hs⟩ := hs.of_written hw
  have hs' := has_of_run hr hl hhash hs
  exact ⟨hs'.written hne, hs.config_eq hs'⟩

/-- After `setConfig` the hash holds the list. -/
theorem has_setConfig {sender : Address} {r : W × State W} (hs : ∀ h, Stored K s h)
    (hok : setConfig K sender l s = .ok r) : Has K r.2 r.1 l := by
  obtain ⟨-, -, hl, hhash, hfold⟩ := setConfig_eq_ok.mp hok
  rw [← hhash] at hfold
  rcases hs r.1 with hs | ⟨l', -, hl', hhash', hs⟩
  · exact has_foldlM (l := []) hl hs hfold
  · have hll : l' = l := configHash_inj (hhash'.trans hhash)
    subst hll
    rw [foldlM_of_has hl hs (fun _ he => he)] at hfold
    injection hfold with hfold
    rwa [← hfold]

theorem resolveVault_eq_ok {c : Uint256} {account token v : Address} :
    resolveVault K s c account token = .ok v ↔ s.accountConfig account ≠ K.word 0 ∧
      s.config (s.accountConfig account) c token = v ∧ v ≠ 0 := by
  simp only [resolveVault, isInitialized, bind_eq_ok, require_eq_ok, exists_const, pure_eq_ok,
    decide_eq_true_eq]
  constructor
  · rintro ⟨hinit, hne, rfl⟩
    exact ⟨hinit, rfl, hne⟩
  · rintro ⟨hinit, rfl, hne⟩
    exact ⟨hinit, hne, rfl⟩

omit [DecidableEq W] in
/-- A vault that is not zero is that of a hash that is used. -/
theorem written_of_config_ne (hs : Stored K s h) {c : Uint256} {t : Address}
    (hne : s.config h c t ≠ 0) : Written K s h := by
  rcases hs with hs | ⟨l, hl, -, -, hs⟩
  · exact absurd (hs.config c t) hne
  · exact hs.written hl

omit [DecidableEq W] in
theorem tokensOn_pairwise (hl : Sorted l) (c : Uint256) : (tokensOn l c).Pairwise (· < ·) := by
  rw [tokensOn, List.pairwise_map]
  refine (List.Pairwise.filter _ hl).imp_of_mem ?_
  intro a b ha hb hab
  have hac : a.chainId = c := by simpa using (List.mem_filter.mp ha).2
  have hbc : b.chainId = c := by simpa using (List.mem_filter.mp hb).2
  rcases hab with hlt | ⟨-, hlt⟩
  · rw [hac, hbc] at hlt
    exact absurd hlt (BitVec.lt_irrefl _)
  · exact hlt

theorem getAllConfigs_of_has {account : Address} {c : Uint256} (hl : Sorted l)
    (hs : Has K s (s.accountConfig account) l) (hne : s.accountConfig account ≠ K.word 0) :
    getAllConfigs K s c account =
      (l.filter (fun e => e.chainId = c)).map (fun e => ⟨e.token, e.vault⟩) := by
  rw [getAllConfigs, if_neg hne, hs.tokens, tokensOn, List.map_map]
  refine List.map_congr_left ?_
  intro e he
  obtain ⟨hmem, hchain⟩ := List.mem_filter.mp he
  have hc : e.chainId = c := by simpa using hchain
  subst hc
  simp only [Function.comp_apply, hs.config, vaultIn_of_mem hl hmem]

theorem listed_of_stored {account : Address} {c : Uint256}
    (hs : Stored K s (s.accountConfig account)) :
    ((getAllConfigs K s c account).map ConfigWithToken.token).Pairwise (· < ·) ∧
    (getAllConfigs K s c account).length ≤ MAX_TOKENS ∧
    (((s.accountConfig account = K.word 0 ∨ ¬ Written K s (s.accountConfig account)) ∧
        getAllConfigs K s c account = []) ∨
      ∃ l, Sorted l ∧ configHash K l = s.accountConfig account ∧
        (∀ c t, s.config (s.accountConfig account) c t = vaultIn l c t) ∧
        getAllConfigs K s c account =
          (l.filter (fun e => e.chainId = c)).map (fun e => ⟨e.token, e.vault⟩)) := by
  by_cases hzero : s.accountConfig account = K.word 0
  · have hnil : getAllConfigs K s c account = [] := by rw [getAllConfigs, if_pos hzero]
    rw [hnil]
    exact ⟨.nil, Nat.zero_le _, .inl ⟨.inl hzero, rfl⟩⟩
  · rcases hs with hs | ⟨l, -, hl, hhash, hs⟩
    · have hnil : getAllConfigs K s c account = [] := by
        rw [getAllConfigs_of_has .nil hs hzero]
        rfl
      rw [hnil]
      exact ⟨.nil, Nat.zero_le _, .inl ⟨.inr hs.not_written, rfl⟩⟩
    · have heq := getAllConfigs_of_has (c := c) hl hs hzero
      have htokens : (getAllConfigs K s c account).map ConfigWithToken.token = tokensOn l c := by
        rw [heq, List.map_map]
        rfl
      refine ⟨?_, ?_, .inr ⟨l, hl, hhash, hs.config, heq⟩⟩
      · rw [htokens]
        exact tokensOn_pairwise hl c
      · rw [← List.length_map (f := ConfigWithToken.token), htokens]
        exact hs.capped c

end Fields

/-- **The sets are content addressed** after every run, and the owner cannot reroute an
account. -/
theorem contentAddressed {relayer owner : Address} {history : List (Call (State W) (Action W))}
    (hr : Run (earnStep K) (State.initial K relayer owner) history s) :
    ContentAddressed K s := by
  have hs : ∀ h, Stored K s h := stored_of_run hr
  constructor
  · exact fun h => contents_of_stored (hs h)
  · exact fun later s' hlater h hw => kept_of_stored (hs h) hlater hw
  · intro sender l r hok
    obtain ⟨-, hne, hl, hhash, -⟩ := setConfig_eq_ok.mp hok
    refine ⟨(has_setConfig hs hok).written hne, ?_⟩
    intro s' sender' l' r' hok'
    obtain ⟨-, -, hl', hhash', -⟩ := setConfig_eq_ok.mp hok'
    rw [hhash, hhash']
    exact configHash_eq_iff hl hl'
  · intro later s' hlater account hsame c token v v' hv hv'
    obtain ⟨-, rfl, hne⟩ := resolveVault_eq_ok.mp hv
    obtain ⟨-, rfl, -⟩ := resolveVault_eq_ok.mp hv'
    have hw := written_of_config_ne (hs (s.accountConfig account)) hne
    rw [hsame, (kept_of_stored (hs _) hlater hw).2]
  · exact fun c account => listed_of_stored (hs (s.accountConfig account))

/-- Two tokens on the first chain and one on the second. -/
def vaultSet : List ConfigInput := [⟨1, 5, 7⟩, ⟨1, 6, 8⟩, ⟨2, 5, 9⟩]

/-- The owner registers the set twice and then one with another vault; the account adopts
the first. -/
def vaultCalls : List (Action Term) :=
  [.setConfig 10 vaultSet, .onInstall 3 (some (configHash Keccak.symbolic vaultSet)),
    .setConfig 10 vaultSet, .setConfig 10 [⟨1, 5, 4⟩, ⟨1, 6, 8⟩]]

theorem contentAddressed_vaultCalls :
    ∃ history s, Run (earnStep Keccak.symbolic) (State.initial Keccak.symbolic 11 10) history s ∧
      history.length = 4 ∧ getAllConfigs Keccak.symbolic s 1 3 = [⟨5, 7⟩, ⟨6, 8⟩] ∧
      ContentAddressed Keccak.symbolic s := by
  have hr := Run.of_attempts (earnStep Keccak.symbolic) (State.initial Keccak.symbolic 11 10)
    vaultCalls
  have hconfigs : (attempts (earnStep Keccak.symbolic) (State.initial Keccak.symbolic 11 10)
        vaultCalls).length = 4 ∧
      getAllConfigs Keccak.symbolic (afterAttempts (earnStep Keccak.symbolic)
        (State.initial Keccak.symbolic 11 10) vaultCalls) 1 3 = [⟨5, 7⟩, ⟨6, 8⟩] := by
    decide +kernel
  exact ⟨_, _, hr, hconfigs.1, hconfigs.2, contentAddressed hr⟩

end Bufi.Earn
