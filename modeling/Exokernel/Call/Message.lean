import Exokernel.Text.Bytes
import Exokernel.EnvId
import Exokernel.Perm
/-!
# Messages

A message carries a word and may carry a page. The kernel shows the last one delivered to an
environment in three words, which user code reads back as a `Message`.
-/

namespace Exokernel

/-- The last message delivered to an environment, as the kernel shows it. -/
structure MessageWords where
  /-- The sender, 0 for none. -/
  sender : UInt32 := 0
  value : UInt32 := 0
  /-- The permission of the page that came along, 0 for no page. -/
  perm : UInt32 := 0
deriving DecidableEq, Inhabited

/-- The three words in memory. -/
def MessageWords.bytes (w : MessageWords) : List UInt8 :=
  ([w.sender, w.value, w.perm].map Bytes.ofWord32).flatten

/-- A message as user code receives it. -/
structure Message where
  value : UInt32
  sender : Option EnvId
  /-- The permission of the page that came along, empty for no page. -/
  perm : Perm
deriving DecidableEq

/-- The message the three words show. -/
def MessageWords.message (w : MessageWords) : Message where
  value := w.value
  sender := EnvId.ofRaw? w.sender
  perm := ⟨w.perm⟩

end Exokernel
