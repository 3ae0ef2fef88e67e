import Abacus.Proofs.FileBindings
import Abacus.VariableFile.Load

/-!
# What loading a file of variables does

Adding and loading say the same of each variable: it is kept, or it was not set and has the value
that the file binds it to (`get?_load_cases`). A load that is not switched off and not stopped sets
all that the file binds to a value (`get?_load`), so that a second load of the file adds nothing
(`load_again`).
-/
namespace Abacus.VariableFile

/-! ## Adding bindings -/

theorem contains_eq_true_iff {env : Environment} {name : String} :
    env.contains name = true ↔ env.get? name ≠ none := by
  rw [Environment.contains, ne_eq, Option.isSome_iff_ne_none]

/-- **What adding can do to a variable**, whether it is stopped or not: it keeps the variable, or it
sets one that is not set to a value that it is bound to. -/
theorem get?_addAll_cases (bindings : Bindings) (env : Environment) (name : String) :
    (addAll bindings env).1.get? name = env.get? name ∨
      env.get? name = none ∧
        ∃ value, (name, some value) ∈ bindings ∧
          (addAll bindings env).1.get? name = some value := by
  fun_induction addAll bindings env with
  | case1 => exact .inl rfl
  | case2 key rest env ih =>
    exact ih.imp_right fun ⟨hnone, value, hmem, hget⟩ =>
      ⟨hnone, value, List.mem_cons_of_mem _ hmem, hget⟩
  | case3 key text rest env hset ih =>
    exact ih.imp_right fun ⟨hnone, value, hmem, hget⟩ =>
      ⟨hnone, value, List.mem_cons_of_mem _ hmem, hget⟩
  | case4 => exact .inl rfl
  | case5 key text rest env hset hbinding ih =>
    have hkey : env.get? key = none := by
      simpa [contains_eq_true_iff] using hset
    rw [Environment.get?_set] at ih
    by_cases hname : name = key
    · subst hname
      simp only [if_true, reduceCtorEq, false_and, or_false] at ih
      exact .inr ⟨hkey, text, List.mem_cons_self, ih⟩
    · rw [if_neg hname] at ih
      exact ih.imp_right fun ⟨hnone, value, hmem, hget⟩ =>
        ⟨hnone, value, List.mem_cons_of_mem _ hmem, hget⟩

theorem get?_addAll_of_set {env : Environment} {name : String} {text : Wide}
    (h : env.get? name = some text) (bindings : Bindings) :
    (addAll bindings env).1.get? name = some text := by
  rcases get?_addAll_cases bindings env name with hkept | ⟨hnone, -⟩
  · rw [hkept, h]
  · rw [h] at hnone
    cases hnone

/-- If adding is not stopped, every key with a value is set behind it. -/
theorem get?_addAll_ne_none {env : Environment} {bindings : Bindings}
    (herror : (addAll bindings env).2 = none) {name : String} {value : Wide}
    (hmem : (name, some value) ∈ bindings) : (addAll bindings env).1.get? name ≠ none := by
  fun_induction addAll bindings env with
  | case1 => exact absurd hmem List.not_mem_nil
  | case2 key rest env ih => exact ih herror (by simpa using hmem)
  | case3 key text rest env hset ih =>
    rcases List.mem_cons.mp hmem with heq | hmem
    · obtain ⟨rfl, -⟩ := Prod.mk.inj heq
      obtain ⟨v, hv⟩ := Option.isSome_iff_exists.mp hset
      simp [get?_addAll_of_set hv]
    · exact ih herror hmem
  | case4 => exact absurd herror (by simp)
  | case5 key text rest env hset hbinding ih =>
    rcases List.mem_cons.mp hmem with heq | hmem
    · obtain ⟨rfl, -⟩ := Prod.mk.inj heq
      have htext : (env.set name text).get? name = some text := by simp
      simp [get?_addAll_of_set htext]
    · exact ih herror hmem

/-- **Adding that is not stopped** gives each variable that is not set the value it is bound to. -/
theorem get?_addAll {env : Environment} {bindings : Bindings}
    (hkeys : (bindings.map Prod.fst).Nodup) (herror : (addAll bindings env).2 = none)
    (name : String) :
    (addAll bindings env).1.get? name = (env.get? name).or (bindings.value? name) := by
  rcases get?_addAll_cases bindings env name with hkept | ⟨hnone, value, hmem, hget⟩
  · cases hvalue : bindings.value? name with
    | none => rw [hkept, Option.or_none]
    | some value =>
      have hset := get?_addAll_ne_none herror (mem_of_value? hvalue)
      rw [hkept] at hset ⊢
      obtain ⟨text, htext⟩ := Option.ne_none_iff_exists'.mp hset
      rw [htext, Option.some_or]
  · rw [hget, hnone, Option.none_or, value?_of_mem hkeys hmem]

/-- Adding does nothing if every key with a value is set. -/
theorem addAll_of_contains {env : Environment} {bindings : Bindings}
    (h : ∀ name value, (name, some value) ∈ bindings → env.contains name = true) :
    addAll bindings env = (env, none) := by
  induction bindings with
  | nil => rfl
  | cons entry rest ih =>
    have hrest := ih fun name value hmem => h name value (List.mem_cons_of_mem _ hmem)
    match entry with
    | (key, none) => rw [addAll, hrest]
    | (key, some text) => rw [addAll, if_pos (h key text List.mem_cons_self), hrest]

/-! ## Loading -/

/-- The entries of the file that is to be loaded; without a file there are none. -/
def fileEntries (tree : FileTree) (dir : Path) (path : Option Wide) : List Entry :=
  match find? tree dir path with
  | some text => entries (statementsOf text)
  | none => []

/-- The bindings of the file that is to be loaded. -/
def fileBindings (env : Environment) (tree : FileTree) (dir : Path) (path : Option Wide) :
    Bindings :=
  bind env (fileEntries tree dir path)

variable {env : Environment} {tree : FileTree} {dir : Path} {path : Option Wide}

theorem load_of_isSwitchedOff (h : isSwitchedOff env = true) :
    load env tree dir path = ⟨env, [], none⟩ := by
  rw [load, if_pos h]

/-- A load that is not switched off is stopped by its path, or it adds the bindings of the file. -/
theorem load_of_not_isSwitchedOff (h : isSwitchedOff env = false) :
    (∃ e, path.bind pathError? = some e ∧ load env tree dir path = ⟨env, [], some e⟩) ∨
      path.bind pathError? = none ∧
        (load env tree dir path).environment = (addAll (fileBindings env tree dir path) env).1 ∧
        (load env tree dir path).error = (addAll (fileBindings env tree dir path) env).2 := by
  rw [load, if_neg (by simp [h])]
  cases path.bind pathError? with
  | some e => exact .inl ⟨e, rfl, rfl⟩
  | none =>
    refine .inr ⟨rfl, ?_⟩
    rw [fileBindings, fileEntries]
    cases find? tree dir path <;> exact ⟨rfl, rfl⟩

/-- **What a load can do to a variable**: it keeps the variable, or it sets one that is not set to
the value that the file binds it to. -/
theorem get?_load_cases (env : Environment) (tree : FileTree) (dir : Path) (path : Option Wide)
    (name : String) :
    (load env tree dir path).environment.get? name = env.get? name ∨
      env.get? name = none ∧
        ∃ value, (fileBindings env tree dir path).value? name = some value ∧
          (load env tree dir path).environment.get? name = some value := by
  cases hoff : isSwitchedOff env with
  | true => exact .inl (by rw [load_of_isSwitchedOff hoff])
  | false =>
    rcases load_of_not_isSwitchedOff hoff with ⟨e, -, hload⟩ | ⟨-, henv, -⟩
    · exact .inl (by rw [hload])
    · rw [henv]
      exact (get?_addAll_cases _ env name).imp_right fun ⟨hnone, value, hmem, hget⟩ =>
        ⟨hnone, value, value?_of_mem (nodup_keys_bind _ _) hmem, hget⟩

/-- **A load that is not switched off and not stopped** adds what the file binds to a value and is
not set, and nothing else. -/
theorem get?_load (hon : isSwitchedOff env = false) (herror : (load env tree dir path).error = none)
    (name : String) :
    (load env tree dir path).environment.get? name =
      (env.get? name).or ((fileBindings env tree dir path).value? name) := by
  rcases load_of_not_isSwitchedOff hon with ⟨e, -, hload⟩ | ⟨-, henv, hadded⟩
  · rw [hload] at herror
    cases herror
  · rw [henv]
    exact get?_addAll (nodup_keys_bind _ _) (hadded ▸ herror) name

/-- Behind a load all keys that the file binds to a value are set, though a reference in the file
may stand for something else by then. -/
theorem addAll_loaded (hon : isSwitchedOff env = false)
    (herror : (load env tree dir path).error = none) :
    let env' := (load env tree dir path).environment
    addAll (fileBindings env' tree dir path) env' = (env', none) := by
  intro env'
  apply addAll_of_contains
  intro name value hmem
  have hvalue : (fileBindings env' tree dir path).value? name = some value :=
    value?_of_mem (nodup_keys_bind _ _) hmem
  have hbound : ((fileBindings env' tree dir path).value? name).isSome =
      ((fileBindings env tree dir path).value? name).isSome := isSome_value?_bind _ _ _ _
  rw [hvalue, Option.isSome_some] at hbound
  rw [Environment.contains, get?_load hon herror, Option.isSome_or, ← hbound, Bool.or_true]

/-- **A second load adds nothing**, and is not stopped if the first one was not. -/
theorem load_again (herror : (load env tree dir path).error = none) :
    let env' := (load env tree dir path).environment
    (load env' tree dir path).environment = env' ∧ (load env' tree dir path).error = none := by
  intro env'
  cases hoff' : isSwitchedOff env' with
  | true =>
    -- The first load may have set the variable that switches off the second.
    rw [load_of_isSwitchedOff hoff']
    exact ⟨rfl, rfl⟩
  | false =>
    have hon : isSwitchedOff env = false := by
      by_contra hoff
      rw [Bool.not_eq_false] at hoff
      have hsame : env' = env := congrArg Loaded.environment (load_of_isSwitchedOff hoff)
      rw [hsame, hoff] at hoff'
      cases hoff'
    rcases load_of_not_isSwitchedOff hoff' with ⟨e, hpath, -⟩ | ⟨-, henv', herror'⟩
    · -- The path would have stopped the first load as well.
      rcases load_of_not_isSwitchedOff hon with ⟨e, -, hload⟩ | ⟨hnone, -⟩
      · rw [hload] at herror
        cases herror
      · rw [hpath] at hnone
        cases hnone
    · rw [henv', herror', addAll_loaded hon herror]
      exact ⟨rfl, rfl⟩

end Abacus.VariableFile
