import Bufi.Evm.AbiWords

/-!
# ABI data that is read back

A tuple is written as its heads, a word for each component, and behind them its dynamic
components one after another; the head of such a component is the offset at which it
stands.  An array is its length and the tuple of its elements.  `Reads elem b a` says that
`elem` finds the value `a` wherever the bytes `b` stand, so that the readers of nested data
are put together as the data is: `Reads.bytes`, `Reads.array`, `Reads.dynArray`, and
`laid_of_at` for the components of a tuple.
-/

namespace Bufi.Evm.Abi

/-! ### Encoding -/

/-- A component of a tuple: one static word, or the encoding of a dynamic value. -/
inductive Part
  | word (w : ℕ)
  | tail (b : Bytes)

/-- The heads of components whose first dynamic one stands at `n`. -/
def heads : ℕ → List Part → List ℕ
  | _, [] => []
  | n, .word w :: ps => w :: heads n ps
  | n, .tail b :: ps => n :: heads (n + b.length) ps

def tails : List Part → Bytes
  | [] => []
  | .word _ :: ps => tails ps
  | .tail b :: ps => b ++ tails ps

/-- `abi.encode` of the components. -/
def encodeTuple (ps : List Part) : Bytes :=
  (heads (32 * ps.length) ps).flatMap (beBytes 32) ++ tails ps

def encodeArray (ps : List Part) : Bytes := beBytes 32 ps.length ++ encodeTuple ps

/-- A length word, and the bytes padded with zeros to whole words. -/
def encodeBytes (b : Bytes) : Bytes :=
  beBytes 32 b.length ++ (b ++ List.replicate ((32 - b.length % 32) % 32) 0)

@[simp] theorem heads_length (n : ℕ) (ps : List Part) : (heads n ps).length = ps.length := by
  induction ps generalizing n with
  | nil => rfl
  | cons part ps ih =>
    cases part with
    | word w => rw [heads, List.length_cons, List.length_cons, ih]
    | tail b => rw [heads, List.length_cons, List.length_cons, ih]

theorem flatMap_words_length (ws : List ℕ) : (ws.flatMap (beBytes 32)).length = 32 * ws.length := by
  induction ws with
  | nil => rfl
  | cons w ws ih =>
    rw [List.flatMap_cons, List.length_append, beBytes_length, ih, List.length_cons]
    omega

theorem encodeTuple_length (ps : List Part) :
    (encodeTuple ps).length = 32 * ps.length + (tails ps).length := by
  rw [encodeTuple, List.length_append, flatMap_words_length, heads_length]

theorem length_le_tails {b : Bytes} {ps : List Part} (h : Part.tail b ∈ ps) :
    b.length ≤ (tails ps).length := by
  induction ps with
  | nil => exact absurd h List.not_mem_nil
  | cons part ps ih =>
    cases part with
    | word w =>
      rcases List.mem_cons.mp h with hb | h
      · cases hb
      · exact ih h
    | tail c =>
      rw [tails, List.length_append]
      rcases List.mem_cons.mp h with hb | h
      · cases hb
        omega
      · have := ih h
        omega

/-- A dynamic component is shorter than the tuple it is in. -/
theorem length_le_encodeTuple {b : Bytes} {ps : List Part} (h : Part.tail b ∈ ps) :
    32 * ps.length + b.length ≤ (encodeTuple ps).length := by
  have := length_le_tails h
  rw [encodeTuple_length]
  omega

/-! ### Where data stands -/

/-- The bytes `b` stand at `p` in `d`. -/
def At (d : Bytes) (p : ℕ) (b : Bytes) : Prop := b <+: d.drop p

namespace At

variable {d b c : Bytes} {p : ℕ}

theorem left (h : At d p (b ++ c)) : At d p b := (List.prefix_append b c).trans h

theorem right (h : At d p (b ++ c)) : At d (p + b.length) c := by
  obtain ⟨rest, hrest⟩ := h
  refine ⟨rest, ?_⟩
  rw [← List.drop_drop, ← hrest, List.append_assoc, List.drop_left]

theorem length_le (h : At d p b) (hb : 0 < b.length) : p + b.length ≤ d.length := by
  have hle := List.IsPrefix.length_le h
  rw [List.length_drop] at hle
  omega

theorem word_right {w : ℕ} (h : At d p (beBytes 32 w ++ c)) : At d (p + 32) c := by
  have hright := h.right
  rwa [beBytes_length] at hright

theorem refl (d : Bytes) : At d 0 d := List.prefix_refl d

end At

theorem word_drop (d : Bytes) (p : ℕ) : word d p = word (d.drop p) 0 := by
  have hlen : p + 32 ≤ d.length ↔ 0 + 32 ≤ (d.drop p).length := by
    rw [List.length_drop]
    omega
  simp only [word, hlen, wordAt, List.drop_zero]

theorem bytes_drop (d : Bytes) (p : ℕ) : bytes d p = bytes (d.drop p) 0 := by
  have hlen : ∀ n, p + 32 + n ≤ d.length ↔ 0 + 32 + n ≤ (d.drop p).length := by
    intro n
    rw [List.length_drop]
    omega
  have hdrop : d.drop (p + 32) = (d.drop p).drop (0 + 32) := by
    rw [Nat.zero_add, List.drop_drop]
  simp only [bytes, word_drop d p, hlen, hdrop]

/-! ### Readers -/

/-- `elem` reads `a` wherever `b` stands. -/
def Reads {α : Type} (elem : Bytes → ℕ → Option α) (b : Bytes) (a : α) : Prop :=
  ∀ d p, At d p b → b.length < 2 ^ 64 → elem d p = some a

theorem At.word {d : Bytes} {p w : ℕ} (h : At d p (beBytes 32 w)) (hw : w < 2 ^ 256) :
    word d p = some (BitVec.ofNat 256 w) := by
  obtain ⟨rest, hrest⟩ := h
  rw [word_drop, ← hrest, word_front_of_lt hw]

theorem At.uint {n : ℕ} (hn : n ≤ 256) {d : Bytes} {p : ℕ} {x : BitVec n}
    (h : At d p (beBytes 32 x.toNat)) : Abi.uint n d p = some x := by
  obtain ⟨rest, hrest⟩ := h
  have hfront : Abi.uint n d p = Abi.uint n (d.drop p) 0 := by
    rw [Abi.uint, word_drop, Abi.uint]
  rw [hfront, ← hrest, uint_front hn]

theorem At.word_eq {d : Bytes} {p : ℕ} {w : Bytes32} (h : At d p (beBytes 32 w.toNat)) :
    Abi.word d p = some w := by
  rw [h.word w.isLt, BitVec.ofNat_toNat, BitVec.setWidth_eq]

theorem At.address {d : Bytes} {p : ℕ} {a : Address} (h : At d p (beBytes 32 a.toNat)) :
    Abi.address d p = some a := At.uint (by decide) h

theorem At.tail {d : Bytes} {p n : ℕ} (h : At d p (beBytes 32 n)) (hn : n < 2 ^ 64) (base : ℕ) :
    Abi.tail d base p = some (base + n) := by
  obtain ⟨rest, hrest⟩ := h
  have hfront : Abi.tail d base p = Abi.tail (d.drop p) base 0 := by
    rw [Abi.tail, word_drop, Abi.tail]
  rw [hfront, ← hrest, tail_front hn]

namespace Reads

theorem word (w : Bytes32) : Reads Abi.word (beBytes 32 w.toNat) w :=
  fun _ _ h _ => h.word_eq

theorem address (a : Address) : Reads Abi.address (beBytes 32 a.toNat) a :=
  fun _ _ h _ => h.address

theorem memBytes (b : MemBytes) : Reads Abi.bytes (encodeBytes b.data) b := by
  intro d p h _
  obtain ⟨rest, hrest⟩ := h
  rw [bytes_drop, ← hrest, encodeBytes, List.append_assoc, List.append_assoc, bytes_front]

theorem bytes (b : Bytes) :
    Reads (fun d p => (Abi.bytes d p).map MemBytes.data) (encodeBytes b) b := by
  intro d p h hsize
  have hb : b.length < 2 ^ 64 := by
    rw [encodeBytes, List.length_append, List.length_append] at hsize
    omega
  have hread := memBytes ⟨b, hb⟩ d p h hsize
  simp only [hread, Option.map_some]

end Reads

/-! ### Tuples -/

/-- The components stand where their heads say, the heads from `p` on and the offsets
counted from `base`. -/
def Laid (d : Bytes) (base : ℕ) : ℕ → List Part → Prop
  | _, [] => True
  | p, .word w :: ps => At d p (beBytes 32 w) ∧ Laid d base (p + 32) ps
  | p, .tail b :: ps =>
    (∃ n < 2 ^ 64, At d p (beBytes 32 n) ∧ At d (base + n) b ∧ b.length < 2 ^ 64)
      ∧ Laid d base (p + 32) ps

theorem laid_of_heads {d : Bytes} {base p n : ℕ} {ps : List Part}
    (hheads : At d p ((heads n ps).flatMap (beBytes 32))) (htails : At d (base + n) (tails ps))
    (hsize : n + (tails ps).length < 2 ^ 64) : Laid d base p ps := by
  induction ps generalizing p n with
  | nil => trivial
  | cons part ps ih =>
    cases part with
    | word w =>
      rw [heads, List.flatMap_cons] at hheads
      exact ⟨hheads.left, ih hheads.word_right htails hsize⟩
    | tail b =>
      rw [heads, List.flatMap_cons] at hheads
      rw [tails] at htails hsize
      rw [List.length_append] at hsize
      refine ⟨⟨n, by omega, hheads.left, htails.left, by omega⟩, ?_⟩
      refine ih hheads.word_right ?_ (by omega)
      rw [← Nat.add_assoc]
      exact htails.right

/-- **The components of a tuple stand where its heads say.** -/
theorem laid_of_at {d : Bytes} {base : ℕ} {ps : List Part} (h : At d base (encodeTuple ps))
    (hsize : (encodeTuple ps).length < 2 ^ 64) : Laid d base base ps := by
  have htails := h.right
  rw [flatMap_words_length, heads_length] at htails
  rw [encodeTuple_length] at hsize
  exact laid_of_heads h.left htails hsize

/-! ### Arrays -/

theorem mapM_range_cons {α : Type} (f : ℕ → Option α) (n : ℕ) :
    (List.range (n + 1)).mapM f
      = (f 0).bind (fun x => ((List.range n).mapM (fun i => f (i + 1))).map (x :: ·)) := by
  have hmap : ∀ x : α, (List.mapM (f ∘ Nat.succ) (List.range n)).bind (fun l => some (x :: l))
      = ((List.range n).mapM (fun i => f (i + 1))).map (x :: ·) := by
    intro x
    rw [Option.map_eq_bind]
    rfl
  rw [List.range_succ_eq_map, List.mapM_cons, List.mapM_map]
  exact Option.bind_congr (fun x _ => hmap x)

variable {α β : Type} {elem : Bytes → ℕ → Option α} {enc : β → Bytes} {val : β → α}

/-- The elements of a laid out list, each of them read where its head stands. -/
theorem mapM_laid {d : Bytes} {base : ℕ} {part : β → Part} {g : ℕ → Option α} {l : List β}
    (hg : ∀ x ∈ l, ∀ q, Laid d base q [part x] → g q = some (val x)) {p : ℕ}
    (h : Laid d base p (l.map part)) :
    (List.range l.length).mapM (fun i => g (p + 32 * i)) = some (l.map val) := by
  induction l generalizing p with
  | nil => rfl
  | cons x l ih =>
    have hsplit : Laid d base p [part x] ∧ Laid d base (p + 32) (l.map part) := by
      rw [List.map_cons] at h
      cases hx : part x with
      | word w =>
        rw [hx] at h
        exact ⟨⟨h.1, trivial⟩, h.2⟩
      | tail b =>
        rw [hx] at h
        exact ⟨⟨h.1, trivial⟩, h.2⟩
    have hhead : g (p + 32 * 0) = some (val x) := hg x List.mem_cons_self p hsplit.1
    have hrest := ih (fun y hy => hg y (List.mem_cons_of_mem _ hy)) hsplit.2
    have hshift : (fun i => g (p + 32 * (i + 1))) = fun i => g (p + 32 + 32 * i) := by
      funext i
      congr 1
      omega
    rw [List.length_cons, mapM_range_cons, hhead, Option.bind_some, hshift, hrest]
    rfl

theorem array_of_at {d : Bytes} {p : ℕ} {part : β → Part} {l : List β}
    (h : At d p (encodeArray (l.map part)))
    (hsize : (encodeArray (l.map part)).length < 2 ^ 64)
    (hread : ∀ x ∈ l, ∀ q, Laid d (p + 32) q [part x] → elem d q = some (val x)) :
    array elem d p = some (l.map val) := by
  have hlen : (encodeArray (l.map part)).length
      = 32 + (32 * l.length + (tails (l.map part)).length) := by
    rw [encodeArray, List.length_append, beBytes_length, encodeTuple_length, List.length_map]
  have hfit := h.length_le (by omega)
  have htuple : At d (p + 32) (encodeTuple (l.map part)) := h.word_right
  have hlaid := laid_of_at htuple (by
    rw [encodeTuple_length, List.length_map]
    omega)
  have hcount : At d p (beBytes 32 l.length) := by
    have hleft := h.left
    rwa [List.length_map] at hleft
  have hnat : (BitVec.ofNat 256 l.length).toNat = l.length := by
    rw [BitVec.toNat_ofNat, Nat.mod_eq_of_lt (by omega)]
  rw [array, hcount.word (by omega), Option.bind_some, hnat, if_pos ⟨by omega, by omega⟩]
  exact mapM_laid hread hlaid

/-- An array of static values. -/
theorem Reads.array {num : β → ℕ} {l : List β}
    (h : ∀ x ∈ l, Reads elem (beBytes 32 (num x)) (val x)) :
    Reads (array elem) (encodeArray (l.map (fun x => .word (num x)))) (l.map val) := by
  intro d p hat hsize
  refine array_of_at hat hsize ?_
  intro x hx q hlaid
  exact h x hx d q hlaid.1 (by rw [beBytes_length]; decide)

/-- An array of dynamic values. -/
theorem Reads.dynArray {l : List β} (h : ∀ x ∈ l, Reads elem (enc x) (val x)) :
    Reads (dynArray elem) (encodeArray (l.map (fun x => .tail (enc x)))) (l.map val) := by
  intro d p hat hsize
  refine array_of_at hat hsize ?_
  intro x hx q hlaid
  obtain ⟨⟨n, hn, hhead, hbody, hlen⟩, -⟩ := hlaid
  simp only [hhead.tail hn, Option.bind_some]
  exact h x hx d _ hbody hlen

end Bufi.Evm.Abi
