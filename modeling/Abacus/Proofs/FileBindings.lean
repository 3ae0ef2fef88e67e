import Abacus.VariableFile.Reference
import Mathlib.Data.List.Nodup

/-!
# What a file of variables binds

Bindings are looked up by their keys, and every key is bound once. Which keys have a value is
settled by the file alone; the values depend on the variables that the file refers to.

`value?_bind_unshadowed` says how little they depend on the rest. An entry for a variable that is
set has no influence on other keys, not even by a reference, as a reference stands for the text that
is set. A variable that is hidden, because something else decides what it is for, has none as long
as no other entry refers to it.
-/
namespace Abacus.VariableFile

/-! ## Bindings -/

/-- The value that bindings have for a key, if there is one. -/
def Bindings.value? (bindings : Bindings) (key : String) : Option Wide :=
  (bindings.lookup key).join

theorem lookup_put (bindings : Bindings) (key other : String) (value : Option Wide) :
    (bindings.put key value).lookup other =
      if other = key then some value else bindings.lookup other := by
  induction bindings with
  | nil =>
    by_cases h : other = key
    · simp [Bindings.put, h]
    · simp [Bindings.put, h, List.lookup_cons, beq_false_of_ne h]
  | cons entry rest ih =>
    obtain ⟨k, v⟩ := entry
    by_cases hk : k = key
    · subst hk
      by_cases h : other = k
      · simp [Bindings.put, h]
      · simp [Bindings.put, h, List.lookup_cons, beq_false_of_ne h]
    · rw [Bindings.put, if_neg hk, List.lookup_cons, List.lookup_cons, ih]
      by_cases h : other = k
      · subst h
        simp [hk]
      · simp [beq_false_of_ne h]

theorem mem_keys_put {bindings : Bindings} {key other : String} {value : Option Wide}
    (h : other ∈ (bindings.put key value).map Prod.fst) :
    other = key ∨ other ∈ bindings.map Prod.fst := by
  induction bindings with
  | nil => exact .inl (by simpa [Bindings.put] using h)
  | cons entry rest ih =>
    obtain ⟨k, v⟩ := entry
    rw [Bindings.put] at h
    split at h
    · exact .inr h
    · rw [List.map_cons, List.mem_cons] at h ⊢
      rcases h with h | h
      · exact .inr (.inl h)
      · exact (ih h).imp_right .inr

theorem nodup_keys_put {bindings : Bindings} (h : (bindings.map Prod.fst).Nodup) (key : String)
    (value : Option Wide) : ((bindings.put key value).map Prod.fst).Nodup := by
  induction bindings with
  | nil => simp [Bindings.put]
  | cons entry rest ih =>
    obtain ⟨k, v⟩ := entry
    rw [Bindings.put]
    split
    · exact h
    · next hk =>
      rw [List.map_cons, List.nodup_cons] at h ⊢
      refine ⟨fun hmem => ?_, ih h.2⟩
      rcases mem_keys_put hmem with hkey | hmem
      · exact hk hkey
      · exact h.1 hmem

theorem value?_of_mem {bindings : Bindings} (h : (bindings.map Prod.fst).Nodup) {key : String}
    {value : Wide} (hmem : (key, some value) ∈ bindings) : bindings.value? key = some value := by
  induction bindings with
  | nil => exact absurd hmem List.not_mem_nil
  | cons entry rest ih =>
    rw [List.map_cons, List.nodup_cons] at h
    rcases List.mem_cons.mp hmem with rfl | hmem
    · simp [Bindings.value?]
    · have hne : key ≠ entry.1 := by
        rintro rfl
        exact h.1 (List.mem_map.mpr ⟨_, hmem, rfl⟩)
      have hrest := ih h.2 hmem
      rw [Bindings.value?] at hrest ⊢
      rw [List.lookup_cons, beq_false_of_ne hne]
      exact hrest

theorem mem_of_value? {bindings : Bindings} {key : String} {value : Wide}
    (h : bindings.value? key = some value) : (key, some value) ∈ bindings := by
  rw [Bindings.value?, Option.join_eq_some_iff] at h
  induction bindings with
  | nil => cases h
  | cons entry rest ih =>
    obtain ⟨k, v⟩ := entry
    rw [List.lookup_cons] at h
    by_cases hk : key = k
    · subst hk
      rw [beq_self_eq_true, Option.some.injEq] at h
      exact h ▸ List.mem_cons_self
    · rw [beq_false_of_ne hk] at h
      exact List.mem_cons_of_mem _ (ih h)

/-! ## Binding entries -/

/-- The bindings with one more entry. -/
def bindEntry (env : Environment) (earlier : Bindings) (e : Entry) : Bindings :=
  earlier.put (String.ofList e.key) (e.value.map (substitute (meaning env earlier)))

theorem bind_eq (env : Environment) (entries : List Entry) :
    bind env entries = entries.foldl (bindEntry env) [] := rfl

theorem lookup_bindEntry (env : Environment) (earlier : Bindings) (e : Entry) (name : String) :
    (bindEntry env earlier e).lookup name =
      if name = String.ofList e.key then
        some (e.value.map (substitute (meaning env earlier)))
      else earlier.lookup name :=
  lookup_put _ _ _ _

/-- Every key is bound once. -/
theorem nodup_keys_bind (env : Environment) (entries : List Entry) :
    ((bind env entries).map Prod.fst).Nodup := by
  suffices h : ∀ earlier : Bindings, (earlier.map Prod.fst).Nodup →
      ((entries.foldl (bindEntry env) earlier).map Prod.fst).Nodup from h [] List.nodup_nil
  induction entries with
  | nil => exact fun earlier h => h
  | cons e entries ih => exact fun earlier h => ih _ (nodup_keys_put h _ _)

/-- **Which keys have a value does not depend on the variables**, only the values do. -/
theorem isSome_value?_bind (env env' : Environment) (entries : List Entry) (key : String) :
    ((bind env entries).value? key).isSome = ((bind env' entries).value? key).isSome := by
  -- Both runs bind the same keys all along, and to a value or to none alike.
  suffices h : ∀ earlier earlier' : Bindings,
      (∀ key, (earlier.lookup key).map Option.isSome = (earlier'.lookup key).map Option.isSome) →
      ((entries.foldl (bindEntry env) earlier).lookup key).map Option.isSome =
        ((entries.foldl (bindEntry env') earlier').lookup key).map Option.isSome by
    have hkey := h [] [] fun _ => rfl
    rw [← bind_eq, ← bind_eq] at hkey
    rw [Bindings.value?, Bindings.value?]
    cases hb : (bind env entries).lookup key <;> cases hb' : (bind env' entries).lookup key <;>
      simp_all
  induction entries with
  | nil => exact fun earlier earlier' h => h key
  | cons e entries ih =>
    intro earlier earlier' h
    apply ih
    intro name
    rw [lookup_bindEntry, lookup_bindEntry]
    split
    · cases e.value <;> rfl
    · exact h name

/-! ## References -/

theorem suffix_of_drop_eq {text front rest : List Char} {n : ℕ} (h : text.drop n = front ++ rest) :
    rest <:+ text := by
  have hdrop := List.drop_suffix n text
  rw [h] at hdrop
  exact List.IsSuffix.trans (List.suffix_append front rest) hdrop

theorem suffix_of_readReference? {cs rest : List Char} {r : Reference}
    (h : readReference? cs = some (r, rest)) : rest <:+ cs := by
  simp only [readReference?] at h
  split at h
  · next after heq =>
    obtain ⟨-, rfl⟩ := Prod.mk.inj (Option.some.inj h)
    exact @suffix_of_drop_eq _ ['\x7d'] _ _ heq
  · next tail heq =>
    split at h
    · next c after heq' =>
      obtain ⟨-, rfl⟩ := Prod.mk.inj (Option.some.inj h)
      have htail : tail <:+ cs := @suffix_of_drop_eq _ [':', '-'] _ _ heq
      exact List.IsSuffix.trans (@suffix_of_drop_eq _ [c] _ _ heq') htail
    · cases h
  · cases h

theorem mentioned_subset_cons (c : Char) (cs : List Char) : mentioned cs ⊆ mentioned (c :: cs) := by
  intro name hname
  rw [mentioned.eq_def]
  split
  · next heq => cases heq
  · next rest heq =>
    obtain ⟨-, rfl⟩ := List.cons.inj heq
    exact List.mem_append_right _ hname
  · next heq =>
    obtain ⟨-, rfl⟩ := List.cons.inj heq
    exact hname

theorem mentioned_subset_of_suffix {cs ds : List Char} (h : cs <:+ ds) :
    mentioned cs ⊆ mentioned ds := by
  obtain ⟨front, rfl⟩ := h
  induction front with
  | nil => exact List.Subset.refl _
  | cons c front ih => exact List.Subset.trans ih (mentioned_subset_cons c _)

theorem mentioned_reference (rest : List Char) :
    mentioned ('$' :: '\x7b' :: rest) =
      ((readReference? rest).map fun found => found.1.name).toList ++
        mentioned ('\x7b' :: rest) := by
  rw [mentioned]

/-- **A text with its references replaced** depends on the names that it mentions only. -/
theorem substitute_congr {f g : Reference → Wide} {cs : List Char}
    (h : ∀ r : Reference, r.name ∈ mentioned cs → f r = g r) :
    substitute f cs = substitute g cs := by
  fun_induction substitute f cs with
  | case1 => rw [substitute]
  | case2 rest r after hread ih =>
    have hsub : mentioned after ⊆ mentioned ('$' :: '\x7b' :: rest) := by
      apply mentioned_subset_of_suffix
      exact List.IsSuffix.trans (suffix_of_readReference? hread) ⟨['$', '\x7b'], rfl⟩
    have hr : r.name ∈ mentioned ('$' :: '\x7b' :: rest) := by
      rw [mentioned_reference, hread]
      exact List.mem_append_left _ List.mem_cons_self
    rw [substitute, hread, h r hr, ih fun r hr => h r (hsub hr)]
  | case3 rest hread ih =>
    have hsub := mentioned_subset_cons '$' ('\x7b' :: rest)
    rw [substitute, hread, ih fun r hr => h r (hsub hr)]
  | case4 c rest hne ih =>
    have hsub := mentioned_subset_cons c rest
    rw [substitute, ih fun r hr => h r (hsub hr)]
    exact hne

/-! ## Entries without influence -/

/-- The names that the value of an entry refers to. -/
def Entry.mentions (e : Entry) : List String := (mentioned (e.value.getD [])).map String.ofList

/-- The entries for variables that are not hidden and not set. -/
def unshadowed (hidden : String → Bool) (env : Environment) (entries : List Entry) : List Entry :=
  entries.filter fun e => !hidden (String.ofList e.key) && !env.contains (String.ofList e.key)

variable {hidden : String → Bool} {env env' : Environment}

/-- A reference to a variable that is not hidden means the same if variables and bindings agree on
all that is not hidden. -/
theorem meaning_congr {earlier earlier' : Bindings} {r : Reference}
    (henv : ∀ name, hidden name = false → env.get? name = env'.get? name)
    (hsame : ∀ name, hidden name = false → env.get? name = none →
      earlier.lookup name = earlier'.lookup name)
    (hr : hidden (String.ofList r.name) = false) :
    meaning env earlier r = meaning env' earlier' r := by
  simp only [meaning, ← henv _ hr]
  cases hget : env.get? (String.ofList r.name) with
  | some text => rfl
  | none => rw [hsame _ hr hget]

theorem bindEntry_congr {earlier earlier' : Bindings} {e : Entry}
    (henv : ∀ name, hidden name = false → env.get? name = env'.get? name)
    (hsame : ∀ name, hidden name = false → env.get? name = none →
      earlier.lookup name = earlier'.lookup name)
    (he : ∀ name ∈ e.mentions, hidden name = false) {name : String}
    (hname : hidden name = false) (hunset : env.get? name = none) :
    (bindEntry env earlier e).lookup name = (bindEntry env' earlier' e).lookup name := by
  rw [lookup_bindEntry, lookup_bindEntry, hsame name hname hunset]
  cases hvalue : e.value with
  | none => rfl
  | some value =>
    have hsub :
        substitute (meaning env earlier) value = substitute (meaning env' earlier') value := by
      apply substitute_congr
      intro r hr
      apply meaning_congr henv hsame
      apply he
      rw [Entry.mentions, hvalue]
      exact List.mem_map_of_mem hr
    rw [Option.map_some, Option.map_some, hsub]

/-- **Entries for hidden and for set variables have no influence on the others**, nor have hidden
variables themselves, if none of the other entries refers to a hidden one. -/
theorem value?_bind_unshadowed {entries : List Entry}
    (henv : ∀ name, hidden name = false → env.get? name = env'.get? name)
    (hrefs : ∀ e ∈ unshadowed hidden env entries, ∀ name ∈ e.mentions, hidden name = false)
    {name : String} (hname : hidden name = false) (hunset : env.get? name = none) :
    (bind env entries).value? name = (bind env' (unshadowed hidden env entries)).value? name := by
  -- The two runs agree on every key that is neither hidden nor set.
  suffices hlookup : ∀ earlier earlier' : Bindings,
      (∀ name, hidden name = false → env.get? name = none →
        earlier.lookup name = earlier'.lookup name) →
      (entries.foldl (bindEntry env) earlier).lookup name =
        ((unshadowed hidden env entries).foldl (bindEntry env') earlier').lookup name from
    congrArg Option.join (hlookup [] [] fun _ _ _ => rfl)
  induction entries with
  | nil => exact fun earlier earlier' hsame => hsame name hname hunset
  | cons e entries ih =>
    intro earlier earlier' hsame
    cases hkept : !hidden (String.ofList e.key) && !env.contains (String.ofList e.key) with
    | true =>
      have hcons : unshadowed hidden env (e :: entries) = e :: unshadowed hidden env entries :=
        List.filter_cons_of_pos hkept
      rw [hcons] at hrefs ⊢
      obtain ⟨he, hrest⟩ := List.forall_mem_cons.mp hrefs
      exact ih hrest _ _ fun other => bindEntry_congr henv hsame he
    | false =>
      have hcons : unshadowed hidden env (e :: entries) = unshadowed hidden env entries :=
        List.filter_cons_of_neg (by simp [hkept])
      rw [hcons] at hrefs ⊢
      apply ih hrefs
      intro other hother hnone
      have hne : other ≠ String.ofList e.key := by
        rintro rfl
        simp [hother, Environment.contains, hnone] at hkept
      rw [lookup_bindEntry, if_neg hne]
      exact hsame other hother hnone

end Abacus.VariableFile
