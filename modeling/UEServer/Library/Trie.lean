import Mathlib.Data.List.Infix

/-!
# Tries

A trie holds words by their letters: each node has a child for every letter with which some word goes on,
and a mark if a word ends there.  This file gives which paths a trie has, and where words end, after words
have been inserted.
-/

inductive Trie (κ : Type*) where
  | node (wordEnd : Bool) (children : List (κ × Trie κ))

namespace Trie

variable {κ : Type*} [DecidableEq κ]

def empty : Trie κ := node false []

def wordEnd : Trie κ → Bool
  | node wordEnd _ => wordEnd

def child : Trie κ → κ → Option (Trie κ)
  | node _ children, key => children.lookup key

def insert : List κ → Trie κ → Trie κ
  | [], node _ children => node true children
  | key :: word, node wordEnd children =>
      node wordEnd ((key, insert word ((children.lookup key).getD empty)) :: children)

def ofList (words : List (List κ)) : Trie κ :=
  words.foldl (fun trie word => trie.insert word) empty

def walk : Trie κ → List κ → Option (Trie κ)
  | trie, [] => some trie
  | trie, key :: path => (trie.child key).bind fun node => node.walk path

def Ends (trie : Trie κ) (path : List κ) : Prop :=
  ∃ node ∈ trie.walk path, node.wordEnd = true

variable (trie : Trie κ)

theorem child_insert (key other : κ) (word : List κ) :
    (trie.insert (key :: word)).child other =
      if other = key then some (((trie.child key).getD empty).insert word) else trie.child other := by
  cases trie with
  | node wordEnd children =>
      change List.lookup other ((key, _) :: children) = _
      by_cases same : other = key
      · subst same
        rw [if_pos rfl, List.lookup_cons_self]
        rfl
      · rw [if_neg same, List.lookup_cons, beq_false_of_ne same]
        rfl

theorem walk_insert_nil (key : κ) (path : List κ) :
    (trie.insert []).walk (key :: path) = trie.walk (key :: path) := by
  cases trie
  rfl

theorem walk_empty (key : κ) (path : List κ) : (empty : Trie κ).walk (key :: path) = none := rfl

theorem not_ends_empty (path : List κ) : ¬ (empty : Trie κ).Ends path := by
  rintro ⟨node, found, ends⟩
  cases path with
  | nil =>
      cases found
      cases ends
  | cons key path => cases found

theorem walk_insert_cons (key other : κ) (word path : List κ) :
    (trie.insert (key :: word)).walk (other :: path) =
      if other = key then (((trie.child key).getD empty).insert word).walk path
      else trie.walk (other :: path) := by
  rw [walk, child_insert]
  split <;> rfl

theorem isSome_walk_insert (word path : List κ) (trie : Trie κ) :
    ((trie.insert word).walk path).isSome = true ↔
      (trie.walk path).isSome = true ∨ path <+: word := by
  induction word generalizing path trie with
  | nil =>
      cases path with
      | nil => exact iff_of_true rfl (.inl rfl)
      | cons other path =>
          rw [walk_insert_nil]
          simp
  | cons key word ih =>
      cases path with
      | nil => exact iff_of_true rfl (.inl rfl)
      | cons other path =>
          rw [walk_insert_cons, List.cons_prefix_cons]
          split
          · rename_i same
            subst same
            rw [ih]
            cases found : trie.child other with
            | none =>
                have gone : trie.walk (other :: path) = none := by
                  rw [walk, found]
                  rfl
                rw [gone, Option.getD_none]
                cases path with
                | nil => simp [walk]
                | cons next path => simp [walk_empty]
            | some node => simp [walk, found]
          · rename_i different
            simp [different]

theorem ends_insert (word path : List κ) (trie : Trie κ) :
    (trie.insert word).Ends path ↔ trie.Ends path ∨ path = word := by
  induction word generalizing path trie with
  | nil =>
      cases path with
      | nil =>
          refine iff_of_true ⟨_, rfl, ?_⟩ (.inr rfl)
          cases trie
          rfl
      | cons other path =>
          rw [Ends, walk_insert_nil]
          simp [Ends]
  | cons key word ih =>
      cases path with
      | nil =>
          cases trie
          simp [Ends, walk, insert, wordEnd]
      | cons other path =>
          rw [Ends, walk_insert_cons, List.cons.injEq]
          split
          · rename_i same
            subst same
            have later := ih path ((trie.child other).getD empty)
            rw [Ends] at later
            rw [later]
            cases found : trie.child other with
            | none =>
                have gone : trie.walk (other :: path) = none := by
                  rw [walk, found]
                  rfl
                have never : ¬ trie.Ends (other :: path) := by
                  rw [Ends, gone]
                  simp
                simp [never, not_ends_empty path]
            | some node => simp [Ends, walk, found]
          · rename_i different
            simp [Ends, different]

theorem isSome_walk_ofList {words : List (List κ)} {path : List κ} :
    ((ofList words).walk path).isSome = true ↔ path = [] ∨ ∃ word ∈ words, path <+: word := by
  have grown : ∀ trie : Trie κ,
      ((words.foldl (fun trie word => trie.insert word) trie).walk path).isSome = true ↔
        (trie.walk path).isSome = true ∨ ∃ word ∈ words, path <+: word := by
    induction words with
    | nil => simp
    | cons word words ih =>
        intro trie
        rw [List.foldl_cons, ih, isSome_walk_insert, List.exists_mem_cons_iff, or_assoc]
  rw [ofList, grown]
  cases path with
  | nil => simp [walk]
  | cons key path => simp [walk_empty]

theorem ends_ofList {words : List (List κ)} {path : List κ} :
    (ofList words).Ends path ↔ path ∈ words := by
  have grown : ∀ trie : Trie κ,
      (words.foldl (fun trie word => trie.insert word) trie).Ends path ↔
        trie.Ends path ∨ path ∈ words := by
    induction words with
    | nil => simp
    | cons word words ih =>
        intro trie
        rw [List.foldl_cons, ih, ends_insert, List.mem_cons, or_assoc]
  rw [ofList, grown]
  exact or_iff_right (not_ends_empty path)

theorem walk_concat (path : List κ) (key : κ) :
    trie.walk (path ++ [key]) = (trie.walk path).bind fun node => node.child key := by
  induction path generalizing trie with
  | nil =>
      exact Option.bind_fun_some _
  | cons other path ih =>
      rw [List.cons_append, walk, walk]
      cases trie.child other with
      | none => rfl
      | some node => exact ih node

end Trie
