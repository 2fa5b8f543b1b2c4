import ActiveGraphSurreal.Harness

/-!
# Imports from several checkouts

The cached modules of `packs` are all from one checkout. A call serves the checkout that it was
asked for when that one is cached, or is put in front of `sys.path`, or is found first there.
-/

namespace ActiveGraphSurreal

namespace Harness

variable {Dir : Type} {fs : Checkouts Dir} {path : List String} {c : Option Dir} {d : Dir}
  {modules : ModuleName → Option Dir}

/-- The cached modules of `packs` are all from the directory of `packs` itself, if any. -/
structure OneCheckout (c : Option Dir) (modules : ModuleName → Option Dir) : Prop where
  packs : modules ["packs"] = c
  others : ∀ name d, modules ("packs" :: name) = some d → c = some d

variable (fs) in
/-- The directory has the module and the packages that it is in; the last part comes first. -/
def Has (d : Dir) : List String → Prop
  | [] => True
  | part :: parents => fs.contains d ("packs" :: (part :: parents).reverse) = true ∧ Has d parents

lemma register_self (name : ModuleName) (h : modules name = none) :
    register fs d name modules name = some d := by
  unfold register
  rw [if_pos (.inl rfl), h]
  rfl

lemma register_eq_some {name n : ModuleName} {d' : Dir}
    (h : register fs d name modules n = some d') : modules n = some d' ∨ d' = d := by
  unfold register at h
  split at h
  · cases hn : modules n with
    | none =>
      rw [hn] at h
      exact .inr (Option.some.inj h).symm
    | some d'' =>
      rw [hn] at h
      exact .inl h
  · exact .inl h

lemma OneCheckout.register_packs (h : OneCheckout none modules) :
    OneCheckout (some d) (register fs d ["packs"] modules) := by
  refine ⟨register_self _ h.packs, ?_⟩
  intro name d' hname
  rcases register_eq_some hname with hold | rfl
  · cases h.others name d' hold
  · rfl

lemma OneCheckout.register (h : OneCheckout (some d) modules) (name : ModuleName) :
    OneCheckout (some d) (Harness.register fs d ("packs" :: name) modules) := by
  constructor
  · have hpacks := h.packs
    unfold Harness.register
    split
    · rw [hpacks]
      rfl
    · exact hpacks
  · intro n d' hn
    rcases register_eq_some hn with hold | rfl
    · exact h.others n d' hold
    · rfl

/-- What an import finds: what is cached, or else the first `packs` on the path. -/
structure Finds (fs : Checkouts Dir) (path : List String) (d : Dir) (parts : List String)
    (result : Except PyErr Dir × (ModuleName → Option Dir)) : Prop where
  cached : OneCheckout (some d) result.2
  served : ∀ d', result.1 = .ok d' → d' = d
  found : Has fs d parts → result.1 = .ok d

lemma importModule_finds (h : OneCheckout c modules)
    (hd : (c <|> (firstEntry fs path).map fs.packs) = some d) (parts : List String) :
    Finds fs path d parts (importModule fs path parts modules) := by
  induction parts with
  | nil =>
    unfold importModule
    rw [h.packs]
    cases c with
    | some d' =>
      obtain rfl := Option.some.inj hd
      exact ⟨h, fun d' hd' => (Except.ok.inj hd').symm, fun _ => rfl⟩
    | none =>
      obtain ⟨entry, hentry, rfl⟩ := Option.map_eq_some_iff.mp hd
      simp only [hentry]
      exact ⟨h.register_packs, fun d' hd' => (Except.ok.inj hd').symm, fun _ => rfl⟩
  | cons part parents ih =>
    unfold importModule
    simp only
    cases hname : modules ("packs" :: (part :: parents).reverse) with
    | some d' =>
      obtain rfl := h.others _ _ hname
      obtain rfl := Option.some.inj hd
      exact ⟨h, fun d'' hd'' => (Except.ok.inj hd'').symm, fun _ => rfl⟩
    | none =>
      simp only
      cases hparents : importModule fs path parents modules with
      | mk result modules' =>
        rw [hparents] at ih
        obtain ⟨hcached, hserved, hfound⟩ := ih
        cases result with
        | error e =>
          refine ⟨hcached, nofun, ?_⟩
          intro hhas
          cases hfound hhas.2
        | ok d' =>
          obtain rfl := hserved d' rfl
          simp only
          cases hagain : modules' ("packs" :: (part :: parents).reverse) with
          | some d'' =>
            obtain rfl := Option.some.inj (hcached.others _ _ hagain)
            exact ⟨hcached, fun _ h => (Except.ok.inj h).symm, fun _ => rfl⟩
          | none =>
            simp only
            by_cases hcontains : fs.contains d' ("packs" :: (part :: parents).reverse) = true
            · rw [if_pos hcontains]
              exact ⟨hcached.register _, fun _ h => (Except.ok.inj h).symm, fun _ => rfl⟩
            · rw [if_neg hcontains]
              exact ⟨hcached, nofun, fun hhas => absurd hhas.1 hcontains⟩

/-! ### One call -/

variable [DecidableEq Dir] {root : String} {p : Process Dir}

/-- `sys.path` after a call. -/
def enter (path : List String) (root : String) : List String :=
  if root ∈ path then path else root :: path

/-- The call is for the checkout that the call before it has left in the cache, or for one that
is not on the path yet, or for the one that is found first on the path. -/
def Turns (fs : Checkouts Dir) (path : List String) (cached : Option Dir) (root : String) : Prop :=
  cached = some (fs.packs root) ∨ root ∉ path ∨
    (firstEntry fs path).map fs.packs = some (fs.packs root)

omit [DecidableEq Dir] in
lemma firstEntry_enter (hroot : fs.holds (fs.packs root) = true) :
    ∃ entry, firstEntry fs (enter path root) = some entry ∧ (root ∉ path → entry = root) := by
  unfold enter
  by_cases hmem : root ∈ path
  · rw [if_pos hmem]
    have hsome : (firstEntry fs path).isSome := List.find?_isSome.mpr ⟨root, hmem, hroot⟩
    obtain ⟨entry, hentry⟩ := Option.isSome_iff_exists.mp hsome
    exact ⟨entry, hentry, fun hnot => absurd hmem hnot⟩
  · rw [if_neg hmem]
    refine ⟨root, ?_, fun _ => rfl⟩
    exact List.find?_cons_of_pos hroot

lemma ensureImportable_path : (ensureImportable fs root p).path = enter p.path root := by
  unfold ensureImportable evictForeignPacks enter
  by_cases hmem : root ∈ p.path
  · rw [if_pos hmem, if_pos hmem]
    split
    · rfl
    · split <;> rfl
  · rw [if_neg hmem, if_neg hmem]
    split
    · rfl
    · split <;> rfl

lemma ensureImportable_modules (h : OneCheckout c p.modules) :
    OneCheckout (if c = some (fs.packs root) then c else none)
      (ensureImportable fs root p).modules := by
  have hmodules : (if root ∈ p.path then p else { p with path := root :: p.path }).modules =
      p.modules := by
    split <;> rfl
  unfold ensureImportable evictForeignPacks
  rw [hmodules, h.packs]
  cases c with
  | none =>
    rw [if_neg nofun, hmodules]
    exact h
  | some d =>
    simp only
    by_cases hd : fs.packs root = d
    · rw [if_pos hd, if_pos (congrArg some hd.symm), hmodules]
      exact h
    · rw [if_neg hd, if_neg fun heq => hd (Option.some.inj heq).symm]
      exact ⟨rfl, fun name d' hname => by simp at hname⟩

/-- A call serves its own checkout exactly when it takes its turn, and leaves it in the cache. -/
lemma importPack_own_iff (h : OneCheckout c p.modules) (hroot : fs.holds (fs.packs root) = true)
    {moduleName : ModuleName} (hhas : Has fs (fs.packs root) moduleName.reverse) :
    ((importPack fs root moduleName p).1 = .ok (fs.packs root) ↔ Turns fs p.path c root) ∧
    (importPack fs root moduleName p).2.path = enter p.path root ∧
    (Turns fs p.path c root →
      OneCheckout (some (fs.packs root)) (importPack fs root moduleName p).2.modules) := by
  obtain ⟨entry, hentry, hnew⟩ : ∃ entry, firstEntry fs (enter p.path root) = some entry ∧
      (root ∉ p.path → entry = root) := firstEntry_enter hroot
  have hcached : OneCheckout (if c = some (fs.packs root) then c else none)
      (ensureImportable fs root p).modules := ensureImportable_modules h
  have hpath : (ensureImportable fs root p).path = enter p.path root := ensureImportable_path
  obtain ⟨d, hd, hturns⟩ : ∃ d, ((if c = some (fs.packs root) then c else none) <|>
      (firstEntry fs (enter p.path root)).map fs.packs) = some d ∧
      (d = fs.packs root ↔ Turns fs p.path c root) := by
    by_cases hc : c = some (fs.packs root)
    · rw [if_pos hc, hc]
      exact ⟨_, rfl, fun _ => .inl rfl, fun _ => rfl⟩
    · rw [if_neg hc, hentry]
      refine ⟨fs.packs entry, rfl, ?_, ?_⟩
      · intro hsame
        by_cases hmem : root ∈ p.path
        · rw [enter, if_pos hmem] at hentry
          right; right
          rw [hentry, ← hsame]
          rfl
        · exact .inr (.inl hmem)
      · rintro (hcache | hmem | hfirst)
        · exact absurd hcache hc
        · rw [hnew hmem]
        · by_cases hmem : root ∈ p.path
          · rw [enter, if_pos hmem] at hentry
            rw [hentry] at hfirst
            exact Option.some.inj hfirst
          · rw [hnew hmem]
  rw [← hpath] at hd
  obtain ⟨hone, hserved, hfound⟩ := importModule_finds hcached hd moduleName.reverse
  unfold importPack
  simp only
  generalize importModule fs (ensureImportable fs root p).path moduleName.reverse
    (ensureImportable fs root p).modules = x at hone hserved hfound
  obtain ⟨result, modules⟩ := x
  rw [← hturns]
  cases result with
  | error e =>
    refine ⟨⟨nofun, ?_⟩, hpath, ?_⟩
    · rintro rfl
      cases hfound hhas
    · rintro rfl
      exact hone
  | ok d' =>
    obtain rfl := hserved d' rfl
    refine ⟨⟨Except.ok.inj, congrArg Except.ok⟩, hpath, ?_⟩
    rintro rfl
    exact hone

/-! ### Sequences of calls -/

/-- Every call of a sequence takes its turn. -/
def TakeTurns (fs : Checkouts Dir) : List String → Option Dir → List String → Prop
  | _, _, [] => True
  | path, cached, root :: roots => Turns fs path cached root ∧
    TakeTurns fs (enter path root) (some (fs.packs root)) roots

theorem imports_own_iff {calls : List (String × ModuleName)} (h : OneCheckout c p.modules)
    (hcalls : ∀ call ∈ calls, fs.holds (fs.packs call.1) = true ∧
      Has fs (fs.packs call.1) call.2.reverse) :
    importAll fs calls p = calls.map (fun call => .ok (fs.packs call.1)) ↔
      TakeTurns fs p.path c (calls.map Prod.fst) := by
  induction calls generalizing p c with
  | nil => exact ⟨fun _ => trivial, fun _ => rfl⟩
  | cons call calls ih =>
    obtain ⟨root, moduleName⟩ := call
    obtain ⟨hroot, hhas⟩ := hcalls _ List.mem_cons_self
    obtain ⟨hown, hpath, hnext⟩ := importPack_own_iff h hroot hhas
    unfold importAll
    rw [List.map_cons, List.map_cons, List.cons_eq_cons, hown, TakeTurns]
    apply and_congr_right
    intro hturn
    rw [← hpath]
    exact ih (hnext hturn) fun call hcall => hcalls call (List.mem_cons_of_mem _ hcall)

/-- Every directory is its own checkout with every module. -/
def everywhere : Checkouts String := ⟨id, fun _ => true, fun _ _ => true, fun _ _ => []⟩

lemma has_everywhere (d : String) (parts : List String) : Has everywhere d parts := by
  induction parts with
  | nil => trivial
  | cons part parents ih => exact ⟨rfl, ih⟩

def freshProcess : Process String := ⟨[], fun _ => none⟩

theorem imports_own_iff_twoCheckouts :
    importAll everywhere [("a", ["core"]), ("b", ["core"])] freshProcess = [.ok "a", .ok "b"] ↔
      TakeTurns everywhere [] none ["a", "b"] :=
  imports_own_iff ⟨rfl, nofun⟩ fun _ _ => ⟨rfl, has_everywhere _ _⟩

/-- The call that returns to the first checkout is served by the second one. -/
theorem returning_import_is_foreign :
    importAll everywhere [("a", ["core"]), ("b", ["core"]), ("a", ["core"])] freshProcess =
        [.ok "a", .ok "b", .ok "b"] ∧
      importAll everywhere [("a", ["core"]), ("b", ["core"]), ("a", ["core"])] freshProcess ≠
        [.ok "a", .ok "b", .ok "a"] := by
  decide

end Harness

end ActiveGraphSurreal
