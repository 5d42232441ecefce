import DeviceProtocol.Text.Basic
set_option autoImplicit false

namespace DeviceProtocol

def controlCodes : List (String × UInt8) :=
  [("nul", 0x00), ("soh", 0x01), ("stx", 0x02), ("etx", 0x03), ("eot", 0x04), ("enq", 0x05),
   ("ack", 0x06), ("bel", 0x07), ("bs", 0x08), ("ht", 0x09), ("tab", 0x09), ("lf", 0x0A),
   ("nl", 0x0A), ("vt", 0x0B), ("ff", 0x0C), ("np", 0x0C), ("cr", 0x0D), ("so", 0x0E),
   ("si", 0x0F), ("dle", 0x10), ("dc1", 0x11), ("dc2", 0x12), ("dc3", 0x13), ("dc4", 0x14),
   ("nak", 0x15), ("syn", 0x16), ("etb", 0x17), ("can", 0x18), ("em", 0x19), ("sub", 0x1A),
   ("esc", 0x1B), ("fs", 0x1C), ("gs", 0x1D), ("rs", 0x1E), ("us", 0x1F), ("del", 0x7F)]

def controlCode? (name : Text) : Option UInt8 :=
  (controlCodes.find? fun entry => entry.1.toList == name).map Prod.snd

def isSkipWord (name : Text) : Bool := name == "skip".toList || name == ['?']

end DeviceProtocol
