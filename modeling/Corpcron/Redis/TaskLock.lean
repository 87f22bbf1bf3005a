import Corpcron.Lib.OwnedLock

/-!
# `RedisClient::lock`, `renewLock` and `unlock`

Each method runs one Lua script, which the server executes atomically on the
key `lock:<key>`.  `lock` repeats its script until it succeeds or its timeout
has passed; the functions here are one execution of the script.
-/

namespace Corpcron

open Lib

/-- Redis as the task locks see it. -/
abbrev RedisLocks := LockStore String String

namespace RedisLocks

/-- One attempt of `lock(key, value, expire_sec, ...)`: `SETNX` followed by
`EXPIRE`. -/
def lock (locks : RedisLocks) (redisNow : Nat) (key value : String) (expireSec : Nat) :
    RedisLocks × Bool :=
  if key = "" ∨ value = "" ∨ expireSec = 0 then (locks, false)
  else locks.acquire ("lock:" ++ key) value (redisNow + expireSec)

/-- `renewLock(key, value, expire_sec)`. -/
def renewLock (locks : RedisLocks) (redisNow : Nat) (key value : String) (expireSec : Nat) :
    RedisLocks × Bool :=
  if key = "" ∨ value = "" ∨ expireSec = 0 then (locks, false)
  else locks.renew ("lock:" ++ key) value (redisNow + expireSec)

/-- `unlock(key, value)`. -/
def unlock (locks : RedisLocks) (key value : String) : RedisLocks × Bool :=
  if key = "" ∨ value = "" then (locks, false)
  else locks.release ("lock:" ++ key) value

/-- A successful `lock` found the key free. -/
theorem lock_ok {locks : RedisLocks} {redisNow : Nat} {key value : String} {expireSec : Nat}
    (h : (locks.lock redisNow key value expireSec).2 = true) :
    locks ("lock:" ++ key) = none ∧
      ∀ k, (locks.lock redisNow key value expireSec).1 k =
        if k = "lock:" ++ key then some ⟨value, redisNow + expireSec⟩ else locks k := by
  unfold lock at *
  by_cases hbad : key = "" ∨ value = "" ∨ expireSec = 0
  · rw [if_pos hbad] at h
    simp at h
  · rw [if_neg hbad] at *
    exact ⟨LockStore.acquire_ok.mp h, LockStore.acquire_ok_apply h⟩

/-- A failed `lock` changes nothing. -/
theorem lock_failed {locks : RedisLocks} {redisNow : Nat} {key value : String}
    {expireSec : Nat} (h : (locks.lock redisNow key value expireSec).2 = false) :
    (locks.lock redisNow key value expireSec).1 = locks := by
  unfold lock at *
  by_cases hbad : key = "" ∨ value = "" ∨ expireSec = 0
  · rw [if_pos hbad]
  · rw [if_neg hbad] at *
    exact LockStore.acquire_failed h

/-- A renewal keeps the owner value of every key. -/
theorem renewLock_value (locks : RedisLocks) (redisNow : Nat) (key value : String)
    (expireSec : Nat) (k : String) :
    ((locks.renewLock redisNow key value expireSec).1 k).map LockEntry.value =
      (locks k).map LockEntry.value := by
  unfold renewLock
  split
  · rfl
  · exact LockStore.renew_value locks _ _ _ _

/-- A renewal never touches a lock held under another owner value. -/
theorem renewLock_other {locks : RedisLocks} {redisNow : Nat} {key value : String}
    {expireSec : Nat} {k : String} {entry : LockEntry String}
    (hk : locks k = some entry) (hne : entry.value ≠ value) :
    (locks.renewLock redisNow key value expireSec).1 k = some entry := by
  unfold renewLock
  split
  · exact hk
  · exact LockStore.renew_other hk hne

/-- An unlock never touches a lock held under another owner value. -/
theorem unlock_other {locks : RedisLocks} {key value k : String} {entry : LockEntry String}
    (hk : locks k = some entry) (hne : entry.value ≠ value) :
    (locks.unlock key value).1 k = some entry := by
  unfold unlock
  split
  · exact hk
  · exact LockStore.release_other hk hne

end RedisLocks
end Corpcron
