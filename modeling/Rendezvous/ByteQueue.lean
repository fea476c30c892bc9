import Rendezvous.Bytes

namespace Rendezvous

theorem ByteQueue.size_empty : 0 = ([] : Bytes).length + (Bytes.joined []).length := rfl

structure ByteQueue where
  front : Bytes := []
  -- What was added behind the front, the newest piece first.
  back : List Bytes := []
  size : Nat := 0
  size_eq : size = front.length + (Bytes.joined back).length := by exact ByteQueue.size_empty
deriving DecidableEq, Repr

namespace ByteQueue

def toList (q : ByteQueue) : Bytes :=
  match q.back with
  | [] => q.front
  | pieces => q.front ++ Bytes.joined pieces

theorem toList_eq (q : ByteQueue) : q.toList = q.front ++ Bytes.joined q.back := by
  unfold toList
  split <;> simp_all

@[simp]
theorem length_toList (q : ByteQueue) : q.toList.length = q.size := by
  simp [toList_eq, q.size_eq]

def isEmpty (q : ByteQueue) : Bool := q.size == 0

@[simp]
theorem isEmpty_iff {q : ByteQueue} : q.isEmpty = true ↔ q.toList = [] := by
  simp [isEmpty, ← List.length_eq_zero_iff]

def ofList (bs : Bytes) : ByteQueue := { front := bs, size := bs.length, size_eq := by simp }

@[simp]
theorem toList_empty : toList {} = [] := rfl

def prepend (bs : Bytes) (q : ByteQueue) : ByteQueue where
  front := bs ++ q.front
  back := q.back
  size := bs.length + q.size
  size_eq := by simp [q.size_eq, Nat.add_assoc]

@[simp]
theorem toList_prepend (bs : Bytes) (q : ByteQueue) :
    (q.prepend bs).toList = bs ++ q.toList := by
  simp [toList_eq, prepend]

def append (q : ByteQueue) (bs : Bytes) : ByteQueue where
  front := q.front
  back := bs :: q.back
  size := q.size + bs.length
  size_eq := by simp [q.size_eq, Nat.add_assoc]

@[simp]
theorem toList_append (q : ByteQueue) (bs : Bytes) :
    (q.append bs).toList = q.toList ++ bs := by
  simp [toList_eq, append]

def take (q : ByteQueue) (limit : Nat) : Bytes × ByteQueue :=
  let all := q.toList
  (all.take limit,
    { front := all.drop limit, size := q.size - limit, size_eq := by simp [all] })

@[simp]
theorem take_fst (q : ByteQueue) (limit : Nat) : (q.take limit).1 = q.toList.take limit := rfl

@[simp]
theorem toList_take_snd (q : ByteQueue) (limit : Nat) :
    (q.take limit).2.toList = q.toList.drop limit := by
  simp [toList_eq, take]

end ByteQueue
end Rendezvous
