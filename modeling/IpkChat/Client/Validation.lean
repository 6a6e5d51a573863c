/-
IpkChat.Client.Validation — the checks of `validation.c`.

The arguments are strings, so they hold no zero byte; `char` comparisons
are comparisons of bytes in the ASCII range, and a byte above 0x7E is
rejected whether `char` is signed or not.

The checks are executable and written in the order of the source: the
length first, then every character. `validate_id` admits a `.` that
neither the README's table nor its own error text has, and it serves
usernames and channel ids alike; `validate_message_content` does not look
at the length, which `cmd_msg` tests for itself.
-/
import IpkChat.Wire.Messages

namespace IpkChat.Client

open CProg Wire

/-- `isalnum`, `_`, `-` and `.` -/
def validateId (id : Bytes) : Bool :=
  !(id.length == 0 || maxUsernameLen < id.length)
    && id.all fun c => isalnum c || c == 95 || c == 45 || c == 46

def validateSecret (secret : Bytes) : Bool :=
  !(secret.length == 0 || maxSecretLen < secret.length)
    && secret.all fun c => isalnum c || c == 95 || c == 45

def validateDisplayName (displayName : Bytes) : Bool :=
  !(displayName.length == 0 || maxDisplayNameLen < displayName.length)
    && displayName.all fun c => !(c < 0x21 || 0x7E < c)

/-- The line feed, the space, and the printable characters. -/
def validateMessageContent (content : Bytes) : Bool :=
  !(content.length == 0)
    && content.all fun c => c == 0x0A || c == 0x20 || (0x21 ≤ c && c ≤ 0x7E)

/-- The copy of the first `MAX_MESSAGE_CONTENT_LEN` bytes. -/
def truncateMessageContent (content : Bytes) : Bytes := content.take maxMessageContentLen

end IpkChat.Client
