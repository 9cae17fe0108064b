import Mathlib.Data.List.Induction
import Dialects.Conversion.Registry
import Dialects.Proofs.Action
import Dialects.Proofs.Table

/-!
# A registry at work

A registry is registered with, asked for converter sets and asked for its languages, in any order,
while recipes may fail at one time and succeed at another, as their surroundings have it. What it
keeps is what has been built by the recipes in force and nothing else (`Faithful`), so that a
language that was never registered is refused, a recipe is followed until it succeeds and not again,
and nobody is given the set of a recipe that has been replaced (`coherent_work`).

Registrations are numbered here, and it is on record which of them has been followed, and what came
of it. The registry itself makes nothing of the numbers.

## Main definitions

* `Provider`: a registry with a record of the recipes that have been followed;
* `InForce`: the registration of a language that came last;
* `Coherent`: what is given for each language after a run.

## Main results

* `Faithful.carryOut`: every use keeps the tables and the record in step;
* `coherent_work`: what is given after a run, and after further uses.
-/

namespace Dialects.Registry

variable {φ α σ : Type}

/-! ## The tables -/

section Tables

variable {r : Registry φ α} {l l' : String}

/-- A recipe that is registered is the recipe of its language. -/
theorem recipes_register_self (r : Registry φ α) (l : String) (recipe : φ) :
    (r.register l recipe).recipes.lookup l = some recipe :=
  lookup_append_self (lookup_filter_self l _) _

/-- A registration leaves the recipes of other languages alone. -/
theorem recipes_register_of_ne (hl : l' ≠ l) (recipe : φ) :
    (r.register l recipe).recipes.lookup l' = r.recipes.lookup l' :=
  (lookup_append_of_ne hl _ _).trans (lookup_filter_of_ne hl _)

/-- After a registration nothing has been built for the language. -/
theorem built_register_self (r : Registry φ α) (l : String) (recipe : φ) :
    (r.register l recipe).built.lookup l = none := lookup_filter_self l _

/-- A registration leaves what has been built for other languages alone. -/
theorem built_register_of_ne (hl : l' ≠ l) (recipe : φ) :
    (r.register l recipe).built.lookup l' = r.built.lookup l' := lookup_filter_of_ne hl _

/-- A set that is kept is the one of its language. -/
theorem built_keep_self (r : Registry φ α) (l : String) (set : α) :
    (r.keep l set).built.lookup l = some set :=
  lookup_append_self (lookup_filter_self l _) _

/-- Keeping a set leaves those of other languages alone. -/
theorem built_keep_of_ne (hl : l' ≠ l) (set : α) :
    (r.keep l set).built.lookup l' = r.built.lookup l' :=
  (lookup_append_of_ne hl _ _).trans (lookup_filter_of_ne hl _)

end Tables

/-! ## Uses and runs -/

/-- A registry at work in some surroundings. -/
structure Provider (φ α σ : Type) where
  /-- The registry; its recipes carry the numbers of their registrations. -/
  registry : Registry (Nat × φ) α
  /-- How many registrations there have been. -/
  count : Nat
  /-- The registrations whose recipes have been followed, with what came of it, first one first. -/
  calls : List (Nat × Except Failure α)
  /-- The surroundings in which recipes are followed. -/
  host : σ

/-- What a registry is used for. -/
inductive Use (φ α : Type) where
  /-- A recipe is registered for a language. -/
  | register (l : String) (recipe : φ)
  /-- The set of a language is asked for. -/
  | request (l : String)
  /-- A text is converted with the set of a language. -/
  | convert (l : String) (conversion : α → Except Failure Text)
  /-- The languages are asked for. -/
  | languages

namespace Use

/-- The language and the recipe that are registered. -/
def registered? : Use φ α → Option (String × φ)
  | .register l recipe => some (l, recipe)
  | .request _ | .convert .. | .languages => none

/-- The language that is used. -/
def language? : Use φ α → Option String
  | .register l _ | .request l | .convert l _ => some l
  | .languages => none

end Use

/-- The registrations among some uses, first one first. -/
def registrations (us : List (Use φ α)) : List (String × φ) := us.filterMap Use.registered?

/-- The registrations among all uses are those among the first ones and those among the others. -/
theorem registrations_append (us us' : List (Use φ α)) :
    registrations (us ++ us') = registrations us ++ registrations us' := List.filterMap_append

/-- Of some registrations, the one of this number is the last one for the language. -/
structure InForce (rs : List (String × φ)) (l : String) (k : Nat) (recipe : φ) : Prop where
  made : rs[k]? = some (l, recipe)
  last : ∀ j recipe', rs[j]? = some (l, recipe') → j ≤ k

namespace Provider

variable (build : φ → Action σ α)

/-- A registry without languages, of which nothing has been asked. -/
def fresh (host : σ) : Provider φ α σ := ⟨.empty, 0, [], host⟩

/-- Follows the recipe of a registration. -/
def follow (recipe : Nat × φ) : Action (Provider φ α σ) α := fun p =>
  let (r, host) := build recipe.2 p.host
  (r, { p with host := host, calls := p.calls ++ [(recipe.1, r)] })

/-- The converter set of a language. -/
def request (l : String) : Action (Provider φ α σ) α := do
  let r ← .ask Provider.registry
  let (set, r') ← r.request (follow build) l
  .change fun p => { p with registry := r' }
  pure set

/-- Carries out a use. -/
def carryOut : Use φ α → Action (Provider φ α σ) Unit
  | .register l recipe =>
    .change fun p =>
      { p with registry := p.registry.register l (p.count, recipe), count := p.count + 1 }
  | .request l => do let _ ← request build l
  | .convert l conversion => do
    let set ← request build l
    let _ ← Action.ofExcept (conversion set)
  | .languages => do let _ ← Action.ask fun p => p.registry.languages

/-- What is left after the recipe of a registration has been followed for a language. -/
def followed (p : Provider φ α σ) (l : String) (k : Nat) (r : Except Failure α) (host : σ) :
    Provider φ α σ where
  registry := match r with
    | .ok set => p.registry.keep l set
    | .error _ => p.registry
  count := p.count
  calls := p.calls ++ [(k, r)]
  host := host

/-- The registry after some uses. A use that fails ends there, and the next one follows. -/
def work (p : Provider φ α σ) (us : List (Use φ α)) : Provider φ α σ :=
  us.foldl (fun p u => (carryOut build u p).2) p

end Provider

/-! ## Registrations in force -/

section InForce

variable {rs rs' : List (String × φ)} {l l' : String} {k k' : Nat} {recipe recipe' : φ}

/-- A language has one registration in force. -/
theorem InForce.unique (h : InForce rs l k recipe) (h' : InForce rs l k' recipe') : k = k' :=
  Nat.le_antisymm (h'.last _ _ h.made) (h.last _ _ h'.made)

/-- A registration is in force for one language. -/
theorem InForce.language_eq (h : InForce rs l k recipe) (h' : InForce rs l' k recipe') : l = l' :=
  (Prod.mk.inj (Option.some.inj (h.made.symm.trans h'.made))).1

/-- Only a registration of the language itself changes what is in force. -/
theorem inForce_append (hnone : ∀ recipe, (l, recipe) ∉ rs') :
    InForce (rs ++ rs') l k recipe ↔ InForce rs l k recipe := by
  have hmade (j : Nat) (r : φ) : (rs ++ rs')[j]? = some (l, r) ↔ rs[j]? = some (l, r) := by
    rcases Nat.lt_or_ge j rs.length with hj | hj
    · rw [List.getElem?_append_left hj]
    · rw [List.getElem?_append_right hj, List.getElem?_eq_none hj]
      exact iff_of_false (fun hr => hnone r (List.mem_of_getElem? hr)) nofun
  exact ⟨fun h => ⟨(hmade k recipe).mp h.made, fun j r hr => h.last j r ((hmade j r).mpr hr)⟩,
    fun h => ⟨(hmade k recipe).mpr h.made, fun j r hr => h.last j r ((hmade j r).mp hr)⟩⟩

/-- A registration is in force from the moment on when it is made. -/
theorem inForce_concat (rs : List (String × φ)) (l : String) (recipe : φ) :
    InForce (rs ++ [(l, recipe)]) l rs.length recipe := by
  refine ⟨by simp, fun j r hr => ?_⟩
  have hj := (List.getElem?_eq_some_iff.mp hr).1
  rw [List.length_append] at hj
  exact Nat.le_of_lt_succ hj

/-- A language that has been registered has a registration in force. -/
theorem exists_inForce (h : (l, recipe) ∈ rs) : ∃ k recipe, InForce rs l k recipe := by
  induction rs using List.reverseRecOn with
  | nil => cases h
  | append_singleton rs r ih =>
    -- the last registration is in force for its language, and for another one it does not count
    by_cases hl : r.1 = l
    · subst hl
      exact ⟨_, _, inForce_concat rs r.1 r.2⟩
    · have hnone (recipe : φ) : (l, recipe) ∉ [r] := by
        rintro hmem
        exact hl (congrArg Prod.fst (List.mem_singleton.mp hmem).symm)
      obtain ⟨k, recipe', hk⟩ := ih ((List.mem_append.mp h).resolve_right (hnone recipe))
      exact ⟨k, recipe', (inForce_append hnone).mpr hk⟩

end InForce

/-! ## What is given -/

namespace Provider

variable {build : φ → Action σ α} {p : Provider φ α σ} {l : String}

/-- A set that has been built is given as it is. -/
theorem request_of_built {set : α} (h : p.registry.built.lookup l = some set) :
    request build l p = (.ok set, p) := by
  rw [request, Action.bind_apply, Action.ask_apply]
  simp only [Registry.request, h, Action.bind_apply, Action.pure_apply, Action.change_apply]

/-- A language without a recipe is refused. -/
theorem request_of_unknown (hbuilt : p.registry.built.lookup l = none)
    (h : p.registry.recipes.lookup l = none) :
    request build l p = (.error (.unknownLanguage l), p) := by
  rw [request, Action.bind_apply, Action.ask_apply]
  simp only [Registry.request, hbuilt, h, Action.bind_apply, Action.throw_apply]

/-- Before anything has been built for a language, its recipe is followed and what comes of it is
given. -/
theorem request_of_recipe {k : Nat} {recipe : φ} (hbuilt : p.registry.built.lookup l = none)
    (h : p.registry.recipes.lookup l = some (k, recipe)) :
    request build l p =
      ((build recipe p.host).1,
        p.followed l k (build recipe p.host).1 (build recipe p.host).2) := by
  rw [request, Action.bind_apply, Action.ask_apply]
  simp only [Registry.request, hbuilt, h, Action.bind_apply, follow]
  rcases build recipe p.host with ⟨_ | _, host⟩ <;> rfl

variable (build p l) in
/-- A set is found, there is no recipe, or the recipe in the table is followed. -/
theorem request_cases :
    (∃ set, p.registry.built.lookup l = some set ∧ request build l p = (.ok set, p)) ∨
    (p.registry.built.lookup l = none ∧ p.registry.recipes.lookup l = none ∧
      request build l p = (.error (.unknownLanguage l), p)) ∨
    ∃ k recipe, p.registry.built.lookup l = none ∧
      p.registry.recipes.lookup l = some (k, recipe) ∧ request build l p =
        ((build recipe p.host).1,
          p.followed l k (build recipe p.host).1 (build recipe p.host).2) := by
  cases hbuilt : p.registry.built.lookup l with
  | some set => exact .inl ⟨set, rfl, request_of_built hbuilt⟩
  | none =>
    cases hrecipe : p.registry.recipes.lookup l with
    | none => exact .inr (.inl ⟨rfl, rfl, request_of_unknown hbuilt hrecipe⟩)
    | some recipe =>
      exact .inr (.inr ⟨recipe.1, recipe.2, rfl, rfl, request_of_recipe hbuilt hrecipe⟩)

/-- A set that is given is kept. -/
theorem built_of_request {set : α} (h : (request build l p).1 = .ok set) :
    (request build l p).2.registry.built.lookup l = some set := by
  -- the set was kept before, or its recipe is followed now and what it gives is kept
  rcases request_cases build p l with ⟨set', hbuilt, hr⟩ | ⟨-, -, hr⟩ | ⟨k, recipe, -, -, hr⟩
  · rw [hr] at h ⊢
    exact hbuilt.trans (congrArg some (Except.ok.inj h))
  · rw [hr] at h
    cases h
  · rw [hr] at h ⊢
    have hok : (build recipe p.host).1 = .ok set := h
    rw [hok]
    exact built_keep_self _ l set

/-- What is given for a language hangs on the entries for it and on the surroundings. -/
theorem request_congr {q : Provider φ α σ}
    (hbuilt : q.registry.built.lookup l = p.registry.built.lookup l)
    (hrecipes : q.registry.recipes.lookup l = p.registry.recipes.lookup l)
    (hhost : q.host = p.host) : (request build l q).1 = (request build l p).1 := by
  rcases request_cases build p l with
    ⟨set, hset, hr⟩ | ⟨hnone, hunknown, hr⟩ | ⟨k, recipe, hnone, hrecipe, hr⟩
  · rw [hr, request_of_built (hbuilt.trans hset)]
  · rw [hr, request_of_unknown (hbuilt.trans hnone) (hrecipes.trans hunknown)]
  · rw [hr, request_of_recipe (hbuilt.trans hnone) (hrecipes.trans hrecipe), hhost]

/-- What is given for one language leaves the entries for another one alone. -/
theorem lookup_request {l' : String} (hl : l' ≠ l) :
    (request build l p).2.registry.built.lookup l' = p.registry.built.lookup l' ∧
      (request build l p).2.registry.recipes.lookup l' = p.registry.recipes.lookup l' := by
  rcases request_cases build p l with ⟨set, -, hr⟩ | ⟨-, -, hr⟩ | ⟨k, recipe, -, -, hr⟩
  · rw [hr]
    exact ⟨rfl, rfl⟩
  · rw [hr]
    exact ⟨rfl, rfl⟩
  · rw [hr]
    cases (build recipe p.host).1 with
    | error f => exact ⟨rfl, rfl⟩
    | ok set => exact ⟨built_keep_of_ne hl set, rfl⟩

/-- The record only grows. -/
theorem calls_request (build : φ → Action σ α) (l : String) (p : Provider φ α σ) :
    p.calls ⊆ (request build l p).2.calls := by
  rcases request_cases build p l with ⟨set, -, hr⟩ | ⟨-, -, hr⟩ | ⟨k, recipe, -, -, hr⟩
  · exact hr ▸ List.Subset.refl _
  · exact hr ▸ List.Subset.refl _
  · exact hr ▸ List.subset_append_left _ _

/-- A conversion asks for the set, and no more of the registry. -/
theorem carryOut_convert (l : String) (conversion : α → Except Failure Text) :
    (carryOut build (.convert l conversion) p).2 = (request build l p).2 := by
  rw [carryOut, Action.bind_apply]
  rcases request build l p with ⟨_ | set, p'⟩
  · rfl
  · exact Action.snd_bind_pure _ _

/-- What has been followed stays on record. -/
theorem calls_work (us : List (Use φ α)) : p.calls ⊆ (p.work build us).calls := by
  induction us generalizing p with
  | nil => exact List.Subset.refl _
  | cons u us ih =>
    -- each use only ever adds to the calls
    have hfirst : p.calls ⊆ (carryOut build u p).2.calls := by
      cases u with
      | register l recipe => exact List.Subset.refl _
      | request l =>
        rw [carryOut, Action.snd_bind_pure]
        exact calls_request build l p
      | convert l conversion =>
        rw [carryOut_convert]
        exact calls_request build l p
      | languages => exact List.Subset.refl _
    exact List.Subset.trans hfirst ih

/-- Uses of other languages leave the entries for a language alone. -/
theorem lookup_work {us : List (Use φ α)} (hus : ∀ u ∈ us, u.language? ≠ some l) :
    (p.work build us).registry.built.lookup l = p.registry.built.lookup l ∧
      (p.work build us).registry.recipes.lookup l = p.registry.recipes.lookup l := by
  induction us generalizing p with
  | nil => exact ⟨rfl, rfl⟩
  | cons u us ih =>
    obtain ⟨hu, hrest⟩ := List.forall_mem_cons.mp hus
    obtain ⟨hbuilt, hrecipes⟩ := ih (p := (carryOut build u p).2) hrest
    -- a use of another language leaves both tables alone where the language is concerned
    have hfirst : (carryOut build u p).2.registry.built.lookup l = p.registry.built.lookup l ∧
        (carryOut build u p).2.registry.recipes.lookup l = p.registry.recipes.lookup l := by
      cases u with
      | register l' recipe =>
        have hl : l ≠ l' := fun heq => hu (congrArg some heq.symm)
        exact ⟨built_register_of_ne hl _, recipes_register_of_ne hl _⟩
      | request l' =>
        rw [carryOut, Action.snd_bind_pure]
        exact lookup_request fun heq => hu (congrArg some heq.symm)
      | convert l' conversion =>
        rw [carryOut_convert]
        exact lookup_request fun heq => hu (congrArg some heq.symm)
      | languages => exact ⟨rfl, rfl⟩
    exact ⟨hbuilt.trans hfirst.1, hrecipes.trans hfirst.2⟩

end Provider

/-! ## Tables and record are in step -/

/-- The tables hold the recipes in force and what has been built by them, and no registration has
been followed again after it had succeeded. -/
structure Faithful (rs : List (String × φ)) (p : Provider φ α σ) : Prop where
  count : p.count = rs.length
  recipes : ∀ l k recipe, p.registry.recipes.lookup l = some (k, recipe) ↔ InForce rs l k recipe
  built : ∀ l set, p.registry.built.lookup l = some set ↔
    ∃ k recipe, InForce rs l k recipe ∧ (k, .ok set) ∈ p.calls
  numbered : ∀ c ∈ p.calls, c.1 < p.count
  once : ∀ k, p.calls.countP (fun c => c.1 == k && c.2.isOk) ≤ 1

namespace Faithful

variable {build : φ → Action σ α} {rs : List (String × φ)} {p : Provider φ α σ} {l : String}
  {k : Nat} {recipe : φ}

/-- A fresh registry tells the truth about no registrations. -/
theorem fresh (host : σ) : Faithful [] (Provider.fresh host : Provider φ α σ) where
  count := rfl
  recipes _ _ _ := ⟨nofun, fun h => nomatch h.made⟩
  built _ _ := ⟨nofun, fun ⟨_, _, h, _⟩ => nomatch h.made⟩
  numbered := nofun
  once _ := Nat.zero_le 1

/-- Nothing is kept for a language before its recipe has succeeded. -/
theorem built_eq_none (h : Faithful rs p) (hforce : InForce rs l k recipe)
    (hnone : ∀ set, (k, .ok set) ∉ p.calls) : p.registry.built.lookup l = none := by
  refine Option.eq_none_iff_forall_ne_some.mpr fun set hset => ?_
  obtain ⟨k', recipe', hforce', hmem⟩ := (h.built l set).mp hset
  exact hnone set (hforce.unique hforce' ▸ hmem)

/-- A registration is in force for its language from then on. -/
theorem register (h : Faithful rs p) (l : String) (recipe : φ) :
    Faithful (rs ++ [(l, recipe)]) { p with
      registry := p.registry.register l (p.count, recipe), count := p.count + 1 } := by
  have hnew := inForce_concat rs l recipe
  have hother {l' : String} (hl : l' ≠ l) (recipe' : φ) : (l', recipe') ∉ [(l, recipe)] :=
    fun hmem => hl (congrArg Prod.fst (List.mem_singleton.mp hmem))
  refine ⟨by simp [h.count], fun l' k recipe' => ?_, fun l' set => ?_, fun c hc => ?_, h.once⟩
  · by_cases hl : l' = l
    · subst hl
      rw [recipes_register_self, h.count, Option.some.injEq, Prod.mk.injEq]
      constructor
      · rintro ⟨rfl, rfl⟩
        exact hnew
      · intro hforce
        obtain rfl := hnew.unique hforce
        exact ⟨rfl, (Prod.mk.inj (Option.some.inj (hnew.made.symm.trans hforce.made))).2⟩
    · rw [recipes_register_of_ne hl, h.recipes, inForce_append (hother hl)]
  · by_cases hl : l' = l
    · -- the new registration has not been followed
      subst hl
      rw [built_register_self]
      refine iff_of_false nofun ?_
      rintro ⟨k, recipe', hforce, hmem⟩
      have hlt := h.numbered _ hmem
      rw [← hnew.unique hforce, h.count] at hlt
      exact Nat.lt_irrefl _ hlt
    · simp only [built_register_of_ne hl, h.built, inForce_append (hother hl)]
  · exact Nat.lt_succ_of_lt (h.numbered c hc)

/-- The recipes that have succeeded are those that had, and the one that is followed if it does. -/
theorem mem_calls_followed (k' : Nat) (set : α) (r : Except Failure α) (host : σ) :
    (k', .ok set) ∈ (p.followed l k r host).calls ↔
      (k', .ok set) ∈ p.calls ∨ k' = k ∧ r = .ok set := by
  simp [Provider.followed, eq_comm]

/-- What is kept for a language once its recipe has been followed is what that has given. -/
theorem built_followed_self (h : Faithful rs p) (hforce : InForce rs l k recipe)
    (hnone : ∀ set, (k, .ok set) ∉ p.calls) (r : Except Failure α) (host : σ) (set : α) :
    (p.followed l k r host).registry.built.lookup l = some set ↔ r = .ok set := by
  cases r with
  | error f => simpa [Provider.followed] using h.built_eq_none hforce hnone ▸ nofun
  | ok set' => simp [Provider.followed, built_keep_self]

/-- A registration that is followed when it has not succeeded yet succeeds once at most. -/
theorem once_followed (h : Faithful rs p) (hnone : ∀ set, (k, .ok set) ∉ p.calls)
    (r : Except Failure α) (host : σ) (k' : Nat) :
    (p.followed l k r host).calls.countP (fun c => c.1 == k' && c.2.isOk) ≤ 1 := by
  show (p.calls ++ [(k, r)]).countP _ ≤ 1
  rw [List.countP_append]
  -- the count for any other registration is the one before
  by_cases hk : k' = k
  · subst hk
    have hzero : p.calls.countP (fun c => c.1 == k' && c.2.isOk) = 0 := by
      rw [List.countP_eq_zero]
      rintro ⟨j, r'⟩ hcall hsuccess
      obtain ⟨hj, hok⟩ := Bool.and_eq_true_iff.mp hsuccess
      obtain rfl := eq_of_beq hj
      obtain ⟨set, rfl⟩ := exists_of_isOk hok
      exact hnone set hcall
    rw [hzero, Nat.zero_add]
    exact List.countP_le_length
  · have hother : [(k, r)].countP (fun c => c.1 == k' && c.2.isOk) = 0 := by
      simp [Ne.symm hk]
    rw [hother]
    exact h.once k'

/-- The tables stay true when the recipe in force is followed, if it has not succeeded before. -/
theorem followed (h : Faithful rs p) (r : Except Failure α) (host : σ)
    (hforce : InForce rs l k recipe) (hnone : ∀ set, (k, .ok set) ∉ p.calls) :
    Faithful rs (p.followed l k r host) := by
  refine ⟨h.count, fun l' k' recipe' => ?_, fun l' set => ?_, fun c hc => ?_,
    h.once_followed hnone r host⟩
  · -- no recipe changes, so that the registrations in force are the same
    have hrecipes : (p.followed l k r host).registry.recipes = p.registry.recipes := by
      cases r <;> rfl
    rw [hrecipes, h.recipes]
  · by_cases hl : l' = l
    · subst hl
      rw [h.built_followed_self hforce hnone]
      constructor
      · rintro rfl
        exact ⟨k, recipe, hforce, (mem_calls_followed k set _ host).mpr (.inr ⟨rfl, rfl⟩)⟩
      · rintro ⟨k', recipe', hforce', hcall⟩
        obtain rfl := hforce.unique hforce'
        exact (((mem_calls_followed k set r host).mp hcall).resolve_left (hnone set)).2
    · -- of any other language nothing has been added to the table
      have hlookup : (p.followed l k r host).registry.built.lookup l' =
          p.registry.built.lookup l' := by
        cases r with
        | error f => rfl
        | ok set' => exact built_keep_of_ne hl set'
      rw [hlookup, h.built]
      refine exists_congr fun k' => exists_congr fun recipe' => and_congr_right fun hforce' => ?_
      -- the new call is none of a registration of the other language
      rw [mem_calls_followed, or_iff_left]
      rintro ⟨rfl, -⟩
      exact hl (hforce'.language_eq hforce)
  · rcases List.mem_append.mp hc with hold | hnew
    · exact h.numbered c hold
    · obtain rfl := List.mem_singleton.mp hnew
      exact h.count ▸ (List.getElem?_eq_some_iff.mp hforce.made).1

/-- The tables stay true when a set is asked for. -/
theorem request (h : Faithful rs p) (l : String) : Faithful rs (Provider.request build l p).2 := by
  -- only a recipe that is followed changes what is kept
  rcases Provider.request_cases build p l with
    ⟨set, -, hr⟩ | ⟨-, -, hr⟩ | ⟨k, recipe, hnone, hrecipe, hr⟩
  · exact hr ▸ h
  · exact hr ▸ h
  · have hforce := (h.recipes l k recipe).mp hrecipe
    rw [hr]
    refine h.followed _ _ hforce fun set hmem => ?_
    rw [(h.built l set).mpr ⟨_, _, hforce, hmem⟩] at hnone
    cases hnone

/-- The tables stay true with every use. -/
theorem carryOut {us : List (Use φ α)} (h : Faithful (registrations us) p) (u : Use φ α) :
    Faithful (registrations (us ++ [u])) (Provider.carryOut build u p).2 := by
  rw [registrations_append]
  cases u with
  | register l recipe => exact h.register l recipe
  | request l =>
    rw [Provider.carryOut, Action.snd_bind_pure]
    exact (List.append_nil (registrations us)).symm ▸ h.request l
  | convert l conversion =>
    rw [Provider.carryOut_convert]
    exact (List.append_nil (registrations us)).symm ▸ h.request l
  | languages => exact (List.append_nil (registrations us)).symm ▸ h

/-- The tables stay true with all uses. -/
theorem work {us : List (Use φ α)} (h : Faithful (registrations us) p) (us' : List (Use φ α)) :
    Faithful (registrations (us ++ us')) (p.work build us') := by
  induction us' generalizing us p with
  | nil => rwa [List.append_nil]
  | cons u us' ih =>
    rw [List.append_cons]
    exact ih (h.carryOut u)

end Faithful

/-! ## What is given after a run -/

/-- What is given for each language after some registrations. -/
structure Coherent (build : φ → Action σ α) (rs : List (String × φ)) (p : Provider φ α σ) :
    Prop where
  /-- A language that was never registered is refused, and no recipe is followed for it. -/
  unknown : ∀ l, (∀ recipe, (l, recipe) ∉ rs) →
    Provider.request build l p = (.error (.unknownLanguage l), p)
  /-- Any other one has a registration in force. -/
  registered : ∀ l recipe, (l, recipe) ∈ rs → ∃ k recipe, InForce rs l k recipe
  /-- What the recipe in force has built is given again, and nothing is done for it. -/
  shared : ∀ l k recipe set, InForce rs l k recipe → (k, .ok set) ∈ p.calls →
    Provider.request build l p = (.ok set, p)
  /-- Before it has built anything it is followed, and what comes of it is given; if it fails, the
  tables are as before. -/
  tried : ∀ l k recipe, InForce rs l k recipe → (∀ set, (k, .ok set) ∉ p.calls) →
    ∃ r host q, build recipe p.host = (r, host) ∧ Provider.request build l p = (r, q) ∧
      q.host = host ∧ q.calls = p.calls ++ [(k, r)] ∧ ∀ f, r = .error f → q.registry = p.registry
  /-- A recipe succeeds at most once for each time that it is registered. -/
  once : ∀ k, p.calls.countP (fun c => c.1 == k && c.2.isOk) ≤ 1

/-- If the tables are true, what is given is what the recipes in force have built. -/
theorem Faithful.coherent {rs : List (String × φ)} {p : Provider φ α σ} (h : Faithful rs p)
    (build : φ → Action σ α) : Coherent build rs p where
  unknown l hnone := by
    have hrecipe : p.registry.recipes.lookup l = none := by
      -- a recipe in the table has been registered, contrary to what is assumed
      refine Option.eq_none_iff_forall_ne_some.mpr fun recipe hrecipe => ?_
      exact hnone recipe.2 (List.mem_of_getElem? ((h.recipes l _ _).mp hrecipe).made)
    refine Provider.request_of_unknown ?_ hrecipe
    refine Option.eq_none_iff_forall_ne_some.mpr fun set hset => ?_
    obtain ⟨k, recipe, hforce, -⟩ := (h.built l set).mp hset
    exact hnone recipe (List.mem_of_getElem? hforce.made)
  registered l recipe hmem := exists_inForce hmem
  shared l k recipe set hforce hcall :=
    Provider.request_of_built ((h.built l set).mpr ⟨k, recipe, hforce, hcall⟩)
  tried l k recipe hforce hnone := by
    have hr : Provider.request build l p = _ :=
      Provider.request_of_recipe (h.built_eq_none hforce hnone) ((h.recipes l k recipe).mpr hforce)
    refine ⟨_, _, _, rfl, hr, rfl, rfl, fun f hf => ?_⟩
    rw [hf]
    rfl
  once := h.once

/-- After every run, whatever recipes are registered and however their surroundings let them fail or
succeed, each language is given what the recipe in force has built or builds now. Once a set has
been given it is given again, and nothing is built, until the language is registered again; and uses
of other languages make no difference to what is given for one, apart from what they do to the
surroundings. -/
theorem coherent_work (build : φ → Action σ α) (host : σ) (us us' : List (Use φ α)) (l : String) :
    let p := Provider.work build (.fresh host) us
    Coherent build (registrations us) p ∧
      (∀ set, (Provider.request build l p).1 = .ok set →
        (∀ recipe, (l, recipe) ∉ registrations us') →
        let q := (Provider.request build l p).2.work build us'
        Provider.request build l q = (.ok set, q)) ∧
      ((∀ u ∈ us', u.language? ≠ some l) →
        (Provider.request build l (p.work build us')).1 =
          (Provider.request build l { p with host := (p.work build us').host }).1) := by
  intro p
  let fresh : Provider φ α σ := .fresh host
  have hfresh : Faithful (registrations ([] : List (Use φ α))) fresh := Faithful.fresh host
  have hfaithful : Faithful (registrations us) p := hfresh.work us
  refine ⟨hfaithful.coherent build, fun set hset hnone => ?_, fun hus => ?_⟩
  · -- the set is on record, and nothing is struck off the record
    have hrequested : Faithful (registrations us) (Provider.request build l p).2 :=
      hfaithful.request l
    obtain ⟨k, recipe, hforce, hcall⟩ :=
      (hrequested.built l set).mp (Provider.built_of_request hset)
    refine Provider.request_of_built ((((hrequested.work us').built l set)).mpr ?_)
    rw [registrations_append]
    exact ⟨k, recipe, (inForce_append hnone).mpr hforce, Provider.calls_work us' hcall⟩
  · exact Provider.request_congr (Provider.lookup_work hus).1 (Provider.lookup_work hus).2 rfl

end Dialects.Registry
