import SqlTree.Migrate.Migrator
import SqlTree.Proofs.Database.HandlePaths
import Mathlib.Data.List.Sort
import Mathlib.Data.String.Basic

/-!
# Registered migrations

A migrator keeps its migrations in the strict order of their names, whatever the order in which they
were registered (`Migrator.names_eq_of_mem_iff`).
-/

namespace SqlTree

/-- One of the two ways of a migration. -/
def Migration.way {m : Type → Type} [Monad m] (migration : Migration m) :
    Migrate.Direction → Database m → Action m Unit
  | .up => migration.up
  | .down => migration.down

namespace Migrator

section

variable {α : Type} {name : String} {a : α} {xs : List (String × α)}

theorem mem_insert {x : String × α} (h : x ∈ insert name a xs) : x = (name, a) ∨ x ∈ xs := by
  induction xs with
  | nil => exact .inl (List.mem_singleton.mp h)
  | cons y xs ih =>
    obtain ⟨n, b⟩ := y
    rw [insert] at h
    split at h
    · exact List.mem_cons.mp h
    · split at h
      · exact (List.mem_cons.mp h).imp id (List.mem_cons_of_mem _)
      · obtain rfl | h := List.mem_cons.mp h
        · exact .inr List.mem_cons_self
        · exact (ih h).imp id (List.mem_cons_of_mem _)

theorem mem_map_insert {n : String} :
    n ∈ (insert name a xs).map Prod.fst ↔ n = name ∨ n ∈ xs.map Prod.fst := by
  induction xs with
  | nil => simp [insert]
  | cons y xs ih =>
    obtain ⟨n', b⟩ := y
    rw [insert]
    split
    · simp
    · split
      · next h =>
        subst h
        simp
      · simp only [List.map_cons, List.mem_cons, ih]
        exact or_left_comm

/-- Items stay in the strict order of their names. -/
theorem pairwise_insert (h : (xs.map Prod.fst).Pairwise (· < ·)) :
    ((insert name a xs).map Prod.fst).Pairwise (· < ·) := by
  induction xs with
  | nil => simp [insert]
  | cons y xs ih =>
    obtain ⟨n, b⟩ := y
    obtain ⟨hn, hxs⟩ := List.pairwise_cons.mp h
    rw [insert]
    split
    · next hlt =>
      refine List.pairwise_cons.mpr ⟨fun m hm => ?_, h⟩
      obtain rfl | hm := List.mem_cons.mp hm
      · exact hlt
      · exact hlt.trans (hn m hm)
    · next hle =>
      split
      · next heq =>
        subst heq
        exact h
      · next hne =>
        refine List.pairwise_cons.mpr ⟨fun m hm => ?_, ih hxs⟩
        obtain rfl | hm := mem_map_insert.mp hm
        · exact lt_of_le_of_ne (not_lt.mp hle) fun h => hne h.symm
        · exact hn m hm

end

end Migrator

/-- A clock that says anything.  To look at it is no act. -/
def Paths.clock : Paths String := fun acts _ => acts = []

namespace Party

variable (u : Party)

/-- A migrator on the pool, with migrations registered one after another. -/
def migrator (registered : List (String × Migration Paths)) : Migrator Paths :=
  registered.foldl (fun g x => g.withMigration x.1 x.2)
    { database := u.handle .pool, now := .clock }

variable (registered : List (String × Migration Paths))

theorem database_migrator : (u.migrator registered).database = u.handle .pool := by
  refine List.foldlRecOn (motive := fun g : Migrator Paths => g.database = u.handle .pool)
    registered _ rfl fun g hg x _ => hg

theorem now_migrator : (u.migrator registered).now = .clock := by
  refine List.foldlRecOn (motive := fun g : Migrator Paths => g.now = .clock)
    registered _ rfl fun g hg x _ => hg

/-- A migrator knows no migrations but those that were registered. -/
theorem mem_registered {x : String × Migration Paths}
    (h : x ∈ (u.migrator registered).migrations) : x ∈ registered := by
  refine List.foldlRecOn
    (motive := fun g : Migrator Paths => ∀ x ∈ g.migrations, x ∈ registered)
    registered _ (fun x hx => absurd hx List.not_mem_nil) (fun g hg y hy x hx => ?_) x h
  obtain rfl | hx := Migrator.mem_insert hx
  · exact hy
  · exact hg x hx

theorem names_sorted : (u.migrator registered).names.Pairwise (· < ·) := by
  refine List.foldlRecOn (motive := fun g : Migrator Paths => g.names.Pairwise (· < ·))
    registered _ .nil fun g hg x _ => Migrator.pairwise_insert hg

theorem mem_names {n : String} :
    n ∈ (u.migrator registered).names ↔ n ∈ registered.map Prod.fst := by
  have hfold : ∀ (xs : List (String × Migration Paths)) (g : Migrator Paths),
      n ∈ (xs.foldl (fun g x => g.withMigration x.1 x.2) g).names ↔
        n ∈ g.names ∨ n ∈ xs.map Prod.fst := by
    intro xs
    induction xs with
    | nil => simp
    | cons x xs ih =>
      intro g
      rw [List.foldl_cons, ih, List.map_cons, List.mem_cons]
      have hinsert : n ∈ (g.withMigration x.1 x.2).names ↔ n = x.1 ∨ n ∈ g.names :=
        Migrator.mem_map_insert
      rw [hinsert, or_assoc, or_left_comm]
  rw [migrator, hfold]
  exact or_iff_right List.not_mem_nil

/-- The order of the registrations makes no difference to the names. -/
theorem names_eq_of_mem_iff {registered' : List (String × Migration Paths)}
    (h : ∀ n, n ∈ registered.map Prod.fst ↔ n ∈ registered'.map Prod.fst) :
    (u.migrator registered).names = (u.migrator registered').names := by
  refine (u.names_sorted registered).eq_of_mem_iff (u.names_sorted registered') fun n => ?_
  rw [mem_names, mem_names, h]

theorem mem_of_lookup {n : String} {migration : Migration Paths}
    (h : (u.migrator registered).migrations.lookup n = some migration) :
    (n, migration) ∈ registered := by
  obtain ⟨before, after, heq, -⟩ := List.lookup_eq_some_iff.mp h
  exact u.mem_registered registered (by rw [heq]; simp)

end Party

end SqlTree
