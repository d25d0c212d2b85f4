import Mathlib.Data.List.Basic
import Mathlib.Data.Nat.Basic
import Solclash.Foundations.RangedInt

-- Self-delimiting binary formats: what is written is read back whatever
-- follows it, and nothing else is accepted.
abbrev Bytes := List UInt8

structure Codec (α : Type) where
  write : α → Bytes
  read : Bytes → Option (α × Bytes)
  roundTrip : ∀ a rest, read (write a ++ rest) = some (a,rest)
  canonical : ∀ {bytes a rest}, read bytes = some (a,rest) → bytes = write a ++ rest

namespace Codec
variable {α β : Type}

def Sized (c : Codec α) (size : Nat) : Prop := ∀ a, (c.write a).length = size

-- Fields one after the other.
def pair (c : Codec α) (d : Codec β) : Codec (α × β) where
  write p := c.write p.1 ++ d.write p.2
  read bytes := (c.read bytes).bind fun p => (d.read p.2).map fun q => ((p.1,q.1),q.2)
  roundTrip := by
    intro p rest
    rw [List.append_assoc,c.roundTrip,Option.bind_some,d.roundTrip,Option.map_some]
  canonical := by
    intro bytes p rest accepted
    obtain ⟨⟨a,middle⟩,first,accepted⟩ := Option.bind_eq_some_iff.mp accepted
    obtain ⟨⟨b,last⟩,second,same⟩ := Option.map_eq_some_iff.mp accepted
    cases same
    have tail : middle = d.write b ++ last := d.canonical second
    rw [c.canonical first,tail,List.append_assoc]

-- The same bytes for another type.
def map (c : Codec α) (f : α → β) (g : β → α) (fg : ∀ b, f (g b) = b) (gf : ∀ a, g (f a) = a) : Codec β where
  write b := c.write (g b)
  read bytes := (c.read bytes).map fun p => (f p.1,p.2)
  roundTrip := by
    intro b rest
    rw [c.roundTrip,Option.map_some,fg]
  canonical := by
    intro bytes b rest accepted
    obtain ⟨⟨a,last⟩,first,same⟩ := Option.map_eq_some_iff.mp accepted
    cases same
    rw [gf]
    exact c.canonical first

def unit : Codec Unit where
  write _ := []
  read bytes := some ((),bytes)
  roundTrip := fun _ _ => rfl
  canonical := by
    intro bytes a rest accepted
    cases accepted
    rfl

-- One byte says which of the two follows.
def sum (c : Codec α) (d : Codec β) : Codec (α ⊕ β) where
  write
    | .inl a => 0 :: c.write a
    | .inr b => 1 :: d.write b
  read
    | [] => none
    | tag :: bytes =>
      if tag = 0 then (c.read bytes).map fun p => (.inl p.1,p.2)
      else if tag = 1 then (d.read bytes).map fun p => (.inr p.1,p.2)
      else none
  roundTrip := by
    intro x rest
    cases x with
    | inl a => simp [c.roundTrip]
    | inr b => simp [d.roundTrip]
  canonical := by
    intro bytes x rest accepted
    cases bytes with
    | nil => cases accepted
    | cons tag bytes =>
        simp only at accepted
        split at accepted
        · rename_i zero
          obtain ⟨⟨a,last⟩,first,same⟩ := Option.map_eq_some_iff.mp accepted
          cases same
          rw [zero,c.canonical first]
          rfl
        · split at accepted
          · rename_i one
            obtain ⟨⟨b,last⟩,first,same⟩ := Option.map_eq_some_iff.mp accepted
            cases same
            rw [one,d.canonical first]
            rfl
          · cases accepted

def option (c : Codec α) : Codec (Option α) :=
  (unit.sum c).map (fun | .inl _ => none | .inr a => some a) (fun | none => .inl () | some a => .inr a)
    (fun o => by cases o <;> rfl) (fun s => by cases s <;> rfl)

-- The position in a list of all the values, in one byte.
def listed [DecidableEq α] (values : List α) (complete : ∀ a, a ∈ values) (distinct : values.Nodup)
    (few : values.length ≤ 256) : Codec α where
  write a := [UInt8.ofNat (values.idxOf a)]
  read
    | [] => none
    | tag :: bytes => (values[tag.toNat]?).map fun a => (a,bytes)
  roundTrip := by
    intro a rest
    have member := complete a
    have small := List.idxOf_lt_length_of_mem member
    have tag : (UInt8.ofNat (values.idxOf a)).toNat = values.idxOf a :=
      UInt8.toNat_ofNat_of_lt' (lt_of_lt_of_le small few)
    simp only [List.cons_append,List.nil_append,tag,List.getElem?_idxOf member,Option.map_some]
  canonical := by
    intro bytes a rest accepted
    cases bytes with
    | nil => cases accepted
    | cons tag bytes =>
        obtain ⟨a',found,same⟩ := Option.map_eq_some_iff.mp accepted
        cases same
        obtain ⟨within,there⟩ := List.getElem?_eq_some_iff.mp found
        rw [← there,distinct.idxOf_getElem,UInt8.ofNat_toNat]
        rfl

-- Natural numbers in a fixed number of bytes, the lowest first.
def littleEndian : Nat → Nat → Bytes
  | 0,_ => []
  | n + 1,v => UInt8.ofNat v :: littleEndian n (v / 256)
def value : Bytes → Nat
  | [] => 0
  | b :: bytes => b.toNat + 256 * value bytes

@[simp] theorem littleEndian_length (n v : Nat) : (littleEndian n v).length = n := by
  induction n generalizing v with
  | zero => rfl
  | succ n ih => simp [littleEndian,ih]

theorem value_lt (bytes : Bytes) : value bytes < 256 ^ bytes.length := by
  induction bytes with
  | nil => exact Nat.one_pos
  | cons b bytes ih =>
      have digit := b.toNat_lt
      simp only [value,List.length_cons,pow_succ]
      omega

theorem value_littleEndian {n v : Nat} (fits : v < 256 ^ n) : value (littleEndian n v) = v := by
  induction n generalizing v with
  | zero =>
      rw [pow_zero] at fits
      simp only [littleEndian,value]
      omega
  | succ n ih =>
      rw [pow_succ] at fits
      have rest := ih (v:=v / 256) (by omega)
      simp only [littleEndian,value,rest,UInt8.toNat_ofNat']
      omega

theorem littleEndian_value (bytes : Bytes) : littleEndian bytes.length (value bytes) = bytes := by
  induction bytes with
  | nil => rfl
  | cons b bytes ih =>
      have digit := b.toNat_lt
      have low : UInt8.ofNat (b.toNat + 256 * value bytes) = b := by
        apply UInt8.toNat.inj
        rw [UInt8.toNat_ofNat']
        omega
      have high : (b.toNat + 256 * value bytes) / 256 = value bytes := by omega
      simp only [List.length_cons,littleEndian,value,low,high,ih]

-- A number of bytes, told apart from what follows by their count only.
def fixed (n : Nat) : Codec {bytes : Bytes // bytes.length = n} where
  write b := b.val
  read bytes := if enough : n ≤ bytes.length then some (⟨bytes.take n,by simpa using enough⟩,bytes.drop n) else none
  roundTrip := by
    intro b rest
    obtain ⟨bytes,rfl⟩ := b
    simp
  canonical := by
    intro bytes b rest accepted
    split at accepted
    · cases accepted
      exact (List.take_append_drop n bytes).symm
    · cases accepted

def reversed (n : Nat) : Codec {bytes : Bytes // bytes.length = n} :=
  (fixed n).map (fun b => ⟨b.val.reverse,by rw [List.length_reverse,b.property]⟩)
    (fun b => ⟨b.val.reverse,by rw [List.length_reverse,b.property]⟩)
    (fun b => Subtype.ext (List.reverse_reverse b.val)) (fun b => Subtype.ext (List.reverse_reverse b.val))

def natural (c : Codec {bytes : Bytes // bytes.length = n}) : Codec {v : Nat // v < 256 ^ n} :=
  c.map (fun b => ⟨value b.val,lt_of_lt_of_eq (value_lt b.val) (by rw [b.property])⟩)
    (fun v => ⟨littleEndian n v.val,littleEndian_length n v.val⟩)
    (fun v => Subtype.ext (value_littleEndian v.property))
    (fun b => Subtype.ext (by obtain ⟨bytes,rfl⟩ := b; exact littleEndian_value bytes))

-- A bit vector as an array of bytes, the highest first.
theorem bits (n : Nat) : 2 ^ (8 * n) = 256 ^ n := by rw [pow_mul]; rfl

theorem toNat_bits {n v : Nat} (fits : v < 256 ^ n) : (BitVec.ofNat (8 * n) v).toNat = v := by
  rw [BitVec.toNat_ofNat,bits,Nat.mod_eq_of_lt fits]

def array (n : Nat) : Codec (BitVec (8 * n)) :=
  (natural (reversed n)).map (fun v => BitVec.ofNat (8 * n) v.val)
    (fun x => ⟨x.toNat,lt_of_lt_of_eq x.isLt (bits n)⟩)
    (fun x => (BitVec.ofNat_toNat (8 * n) x).trans (BitVec.setWidth_eq x)) (fun v => Subtype.ext (toNat_bits v.property))

-- Two's complement: the upper half of the naturals stands for the negatives.
section complement
variable {lo hi : Int} {n : Nat}

def complement (n : Nat) (r : RangedInt lo hi) : Nat := (r.val % (256 ^ n : Nat)).toNat
def signedValue (hi : Int) (n v : Nat) : Int := if (v : Int) ≤ hi then v else v - (256 ^ n : Nat)

theorem complement_lt (r : RangedInt lo hi) : complement n r < 256 ^ n := by
  have positive : (0 : Int) < (256 ^ n : Nat) := by exact_mod_cast Nat.pow_pos (by decide : 0 < 256)
  have below := Int.emod_lt_of_pos r.val positive
  have least := Int.emod_nonneg r.val (ne_of_gt positive)
  unfold complement
  omega

theorem signedValue_fits (width : hi - lo + 1 = (256 ^ n : Nat)) (lower : lo ≤ 0) (upper : 0 ≤ hi) {v : Nat}
    (fits : v < 256 ^ n) :
    lo ≤ signedValue hi n v ∧ signedValue hi n v ≤ hi := by
  have bound : (v : Int) < (256 ^ n : Nat) := by exact_mod_cast fits
  unfold signedValue
  split <;> omega

theorem signedValue_complement (width : hi - lo + 1 = (256 ^ n : Nat)) (lower : lo ≤ 0) (upper : 0 ≤ hi)
    (r : RangedInt lo hi) : signedValue hi n (complement n r) = r.val := by
  have least := r.lower
  have most := r.upper
  by_cases negative : r.val < 0
  · have shifted : r.val % (256 ^ n : Nat) = r.val + (256 ^ n : Nat) := by
      rw [← Int.add_emod_right]
      exact Int.emod_eq_of_lt (by omega) (by omega)
    unfold signedValue complement
    rw [shifted]
    split <;> omega
  · have kept : r.val % (256 ^ n : Nat) = r.val := Int.emod_eq_of_lt (by omega) (by omega)
    unfold signedValue complement
    rw [kept]
    split <;> omega

theorem complement_signedValue (width : hi - lo + 1 = (256 ^ n : Nat)) (lower : lo ≤ 0) (upper : 0 ≤ hi) {v : Nat}
    (fits : v < 256 ^ n) :
    complement n (⟨signedValue hi n v,(signedValue_fits width lower upper fits).1,
      (signedValue_fits width lower upper fits).2⟩ : RangedInt lo hi) = v := by
  have bound : (v : Int) < (256 ^ n : Nat) := by exact_mod_cast fits
  unfold complement signedValue
  split
  · rw [Int.emod_eq_of_lt (by omega) bound]
    omega
  · rw [Int.sub_emod_right,Int.emod_eq_of_lt (by omega) bound]
    omega

def ranged (n : Nat) (width : hi - lo + 1 = (256 ^ n : Nat)) (lower : lo ≤ 0) (upper : 0 ≤ hi) : Codec (RangedInt lo hi) :=
  (natural (fixed n)).map
    (fun v => ⟨signedValue hi n v.val,(signedValue_fits width lower upper v.property).1,
      (signedValue_fits width lower upper v.property).2⟩)
    (fun r => ⟨complement n r,complement_lt r⟩)
    (fun r => RangedInt.ext_val (signedValue_complement width lower upper r))
    (fun v => Subtype.ext (complement_signedValue width lower upper v.property))
end complement

@[simp] theorem pair_length (c : Codec α) (d : Codec β) (p : α × β) :
    ((c.pair d).write p).length = (c.write p.1).length + (d.write p.2).length := List.length_append
@[simp] theorem map_length (c : Codec α) (f : α → β) (g : β → α) (fg gf) (b : β) :
    ((c.map f g fg gf).write b).length = (c.write (g b)).length := rfl
@[simp] theorem option_length (c : Codec α) (o : Option α) :
    (c.option.write o).length = 1 + o.elim 0 fun a => (c.write a).length := by
  cases o with
  | none => rfl
  | some a => exact Nat.add_comm ..
@[simp] theorem listed_length [DecidableEq α] (values : List α) (complete distinct few) (a : α) :
    ((listed values complete distinct few).write a).length = 1 := rfl

theorem sized_array (n : Nat) : (array n).Sized n := by
  intro x
  exact (List.length_reverse ..).trans (littleEndian_length n x.toNat)
theorem sized_ranged {lo hi : Int} (n : Nat) (width : hi - lo + 1 = (256 ^ n : Nat)) (lower : lo ≤ 0) (upper : 0 ≤ hi) :
    (ranged n width lower upper).Sized n := fun r => littleEndian_length n (complement n r)

-- A value behind a mark that tells its type.
def after (mark : Bytes) (c : Codec α) : Codec α where
  write a := mark ++ c.write a
  read bytes := if mark <+: bytes then c.read (bytes.drop mark.length) else none
  roundTrip := by
    intro a rest
    rw [List.append_assoc,if_pos (List.prefix_append ..),List.drop_left]
    exact c.roundTrip a rest
  canonical := by
    intro bytes a rest accepted
    split at accepted
    · rename_i marked
      obtain ⟨tail,rfl⟩ := marked
      rw [List.drop_left] at accepted
      rw [c.canonical accepted,List.append_assoc]
    · cases accepted

@[simp] theorem after_length (c : Codec α) (mark : Bytes) (a : α) :
    ((c.after mark).write a).length = mark.length + (c.write a).length := List.length_append

-- Another mark of the same length is not accepted.
theorem after_other {mark other : Bytes} {c : Codec α} {d : Codec β} (length : mark.length = other.length)
    (different : mark ≠ other) (b : β) (rest : Bytes) :
    (c.after mark).read ((d.after other).write b ++ rest) = none := by
  apply if_neg
  rintro ⟨tail,same⟩
  apply different
  have marks : mark ++ tail = other ++ (d.write b ++ rest) := by rw [same,← List.append_assoc]; rfl
  exact (List.append_inj marks length).1

-- A value kept at the beginning of a buffer of constant length: whatever was
-- there beyond its last byte stays.
def store (c : Codec α) (a : α) (buffer : Bytes) : Option Bytes :=
  if (c.write a).length ≤ buffer.length then some (c.write a ++ buffer.drop (c.write a).length) else none
def load (c : Codec α) (buffer : Bytes) : Option α := (c.read buffer).map (·.1)

section storage
variable {c : Codec α} {a : α} {buffer next : Bytes}

theorem store_some : c.store a buffer = some next ↔
    (c.write a).length ≤ buffer.length ∧ next = c.write a ++ buffer.drop (c.write a).length := by
  unfold store
  split <;> simp_all [eq_comm]

theorem store_length (stored : c.store a buffer = some next) : next.length = buffer.length := by
  obtain ⟨fits,rfl⟩ := store_some.mp stored
  rw [List.length_append,List.length_drop]
  omega

theorem load_store (stored : c.store a buffer = some next) : c.load next = some a := by
  obtain ⟨_,rfl⟩ := store_some.mp stored
  rw [load,c.roundTrip]
  rfl

-- What was accepted is the only spelling of its value.
theorem store_load (read : c.load buffer = some a) : c.store a buffer = some buffer := by
  obtain ⟨⟨a',rest⟩,accepted,same⟩ := Option.map_eq_some_iff.mp read
  cases same
  have spelled := c.canonical accepted
  refine store_some.mpr ⟨?_,?_⟩
  · rw [spelled,List.length_append]
    exact Nat.le_add_right ..
  · rw [spelled,List.drop_left]

-- One value after the other in the same buffer; the last one is what is read.
theorem stores_load (fits : ∀ a, (c.write a).length ≤ buffer.length) (earlier : List α) (last : α) :
    ∃ final, (earlier ++ [last]).foldlM (fun buffer a => c.store a buffer) buffer = some final ∧
      final.length = buffer.length ∧ c.load final = some last := by
  induction earlier generalizing buffer with
  | nil =>
      have stored : c.store last buffer = some _ := store_some.mpr ⟨fits last,rfl⟩
      exact ⟨_,by simp [stored],store_length stored,load_store stored⟩
  | cons a earlier ih =>
      have stored : c.store a buffer = some _ := store_some.mpr ⟨fits a,rfl⟩
      have same := store_length stored
      obtain ⟨final,all,length,read⟩ := ih (fun a => (fits a).trans same.ge)
      exact ⟨final,by simpa [stored] using all,length.trans same,read⟩

-- A buffer size that suffices for every value and that no smaller one replaces.
structure Holds (c : Codec α) (space : Nat) : Prop where
  lasts : ∀ {buffer : Bytes}, buffer.length = space → ∀ earlier last, ∃ final,
    (earlier ++ [last]).foldlM (fun buffer a => c.store a buffer) buffer = some final ∧
      final.length = space ∧ c.load final = some last
  least : ∀ buffer : Bytes, (∀ a, c.store a buffer ≠ none) ↔ space ≤ buffer.length
  spelled : ∀ {buffer : Bytes} {a}, c.load buffer = some a → c.store a buffer = some buffer

theorem holds_of {space : Nat} (fits : ∀ a, (c.write a).length ≤ space) (full : (c.write a).length = space) :
    c.Holds space where
  lasts := by
    intro buffer size earlier last
    have room : ∀ a, (c.write a).length ≤ buffer.length := fun a => size ▸ fits a
    obtain ⟨final,all,length,read⟩ := stores_load room earlier last
    exact ⟨final,all,length.trans size,read⟩
  least := by
    intro buffer
    constructor
    · intro every
      obtain ⟨next,stored⟩ := Option.ne_none_iff_exists'.mp (every a)
      exact full ▸ (store_some.mp stored).1
    · intro enough a
      rw [store_some.mpr ⟨(fits a).trans enough,rfl⟩]
      exact Option.some_ne_none _
  spelled := store_load
end storage

end Codec
