import Mathlib.Data.List.Perm.Basic
import Mathlib.Algebra.Order.Ring.Int

-- A register that keeps the value with the newest stamp it was offered, the
-- first of them on a tie. Its final value does not depend on the order of the
-- offers when the newest ones are all the same.
namespace NewestWins
variable {A : Type} {stamp : A → Int}

def keep (stamp : A → Int) (held : Option A) (a : A) : Option A :=
  match held with
  | none => some a
  | some b => if stamp b < stamp a then some a else some b

def settle (stamp : A → Int) (held : Option A) (offers : List A) : Option A := offers.foldl (keep stamp) held

structure Newest (stamp : A → Int) (offers : List A) (a : A) : Prop where
  offered : a ∈ offers
  latest : ∀ b ∈ offers, stamp b ≤ stamp a

theorem keep_held (older : stamp a ≤ stamp b) : keep stamp (some b) a = some b := if_neg (not_lt_of_ge older)
theorem keep_newer (newer : stamp b < stamp a) : keep stamp (some b) a = some a := if_pos newer

theorem settle_snoc (held : Option A) (offers : List A) (a : A) :
    settle stamp held (offers ++ [a]) = keep stamp (settle stamp held offers) a := List.foldl_concat ..

theorem settle_held (settled : settle stamp (some b) offers = some a) : Newest stamp (b :: offers) a := by
  induction offers generalizing b with
  | nil =>
      cases settled
      exact ⟨List.mem_cons_self ..,fun c member => (congrArg stamp (List.mem_singleton.mp member)).le⟩
  | cons c offers ih =>
      change settle stamp (keep stamp (some b) c) offers = some a at settled
      rcases lt_or_ge (stamp b) (stamp c) with newer | older
      · rw [keep_newer newer] at settled
        obtain ⟨offered,latest⟩ := ih settled
        refine ⟨List.mem_cons_of_mem _ offered,?_⟩
        intro d member
        rcases List.mem_cons.mp member with rfl | rest
        · exact newer.le.trans (latest c (List.mem_cons_self ..))
        · exact latest d rest
      · rw [keep_held older] at settled
        obtain ⟨offered,latest⟩ := ih settled
        have own := latest b (List.mem_cons_self ..)
        constructor
        · rcases List.mem_cons.mp offered with rfl | rest
          · exact List.mem_cons_self ..
          · exact List.mem_cons_of_mem _ (List.mem_cons_of_mem _ rest)
        · intro d member
          rcases List.mem_cons.mp member with rfl | rest
          · exact own
          · rcases List.mem_cons.mp rest with rfl | rest
            · exact older.trans own
            · exact latest d (List.mem_cons_of_mem _ rest)

theorem settle_held_some (stamp : A → Int) (b : A) (offers : List A) : ∃ a, settle stamp (some b) offers = some a := by
  induction offers generalizing b with
  | nil => exact ⟨b,rfl⟩
  | cons c offers ih =>
      change ∃ a, settle stamp (keep stamp (some b) c) offers = some a
      rcases lt_or_ge (stamp b) (stamp c) with newer | older
      · rw [keep_newer newer]; exact ih c
      · rw [keep_held older]; exact ih b

theorem settle_newest (settled : settle stamp none offers = some a) : Newest stamp offers a := by
  cases offers with
  | nil => cases settled
  | cons b offers => exact settle_held settled

-- The newest offers are all the same.
def Agree (stamp : A → Int) (offers : List A) : Prop := ∀ {a b}, Newest stamp offers a → Newest stamp offers b → a = b

theorem agree_distinct (distinct : ∀ a ∈ offers, ∀ b ∈ offers, stamp a = stamp b → a = b) : Agree stamp offers := by
  intro a b one two
  exact distinct a one.offered b two.offered (le_antisymm (two.latest a one.offered) (one.latest b two.offered))

theorem Newest.perm (newest : Newest stamp offers a) (perm : offers.Perm other) : Newest stamp other a :=
  ⟨perm.mem_iff.mp newest.offered,fun b member => newest.latest b (perm.mem_iff.mpr member)⟩

theorem settle_perm (agree : Agree stamp offers) (perm : offers.Perm other) :
    settle stamp none offers = settle stamp none other := by
  cases offers with
  | nil => rw [List.nil_perm.mp perm]
  | cons b offers =>
      cases other with
      | nil => cases List.perm_nil.mp perm
      | cons c other =>
          obtain ⟨a,one⟩ := settle_held_some stamp b offers
          obtain ⟨a',two⟩ := settle_held_some stamp c other
          have same : a = a' := agree (settle_held one) ((settle_held two).perm perm.symm)
          change settle stamp (some b) offers = settle stamp (some c) other
          rw [one,two,same]

end NewestWins
