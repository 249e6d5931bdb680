/-! # Built-in definitions

The boards and wings that every session knows unless it is told not to.
-/

namespace Pinout.Builtin

def boards : String :=
  "# Built-in board definitions.
\x23
\x23 Each board lists its header buses in connector order. A pin entry names the
\x23 FPGA pin wired to that header position; an empty entry is a header position
\x23 with nothing behind it.

\"Papilio One\", p1 \x7b
\tCLK \x7b PERIOD = \"31.25ns\" \x7d : P89
\tTX : P88
\tRX : P90
\tA : P18, P23, P26, P33, P35, P40, P53, P57, P60, P62, P65, P67, P70, P79, P84, P86
\tB : P85, P83, P78, P71, P68, P66, P63, P61, P58, P54, P41, P36, P34, P32, P25, P22
\tC : P91, P92, P94, P95, P98, P2, P3, P4, P5, P9, P10, P11, P12, P15, P16, P17
\x7d

\"Papilio One 500K\", p1_500 : \"Papilio One\" \x7b
\t@header <<
\t\t# Papilio One 500K
\t\t# Spartan 3E XC3S500E-VQ100
\t>>
\t@config \x7b
\t\tENABLE_SUSPEND = \"FILTERED\"
\t\x7d
\x7d

\"Papilio One 250K\", p1_250 : \"Papilio One\" \x7b
\t@header <<
\t\t# Papilio One 250K
\t\t# Spartan 3E XC3S250E-VQ100
\t>>
\x7d

\"Papilio RAM\", pram \x7b
\tCLK \x7b PERIOD = \"31.25ns\" \x7d : P43
\tTX : P105
\tRX : P101
\tA : P20, P21, P22, P23, P24, P26, P27, P29, P32, P33, P34, P35, P40, P41, P44, P45
\tB : P46, P47, P48, P50, P51, P55, P56, P57, P58, P59, P60, P61, P62, P64, P65, P66
\tC : P67, P69, P70, P74, P75, P78, P79, P80, P81, P82, P83, P84, P85, P86, P87, P88
\tD : P92, P93, P94, P95, P97, P98, P99, P100, P102, P104, P111, P112, P114, P115, P116, P117
\x7d
"

def wings : String :=
  "# Built-in wing definitions.
\x23
\x23 Wing pins name the signal routed to each header position. Placing a wing
\x23 stacks these names onto a board\x27s header. A bus followed by another bus
\x23 must not end with an empty pin, the next bus name would be read as that pin.

\"B/LED\", bled \x7b
\tLED \x7b IOSTANDARD = LVTTL, DRIVE = 8, SLEW = SLOW \x7d : LED(0), LED(1), LED(2), LED(3), LED(4), LED(5), LED(6), LED(7)
\x7d

\"PS/2\", ps2 \x7b
\tPS2 \x7b PULLUP \x7d : PS2_DATA1, PS2_CLK1, , , PS2_DATA2, PS2_CLK2, ,
\x7d

\"Arcade\", mega \x7b
\tA : J1_UP, J1_DOWN, J1_LEFT, J1_RIGHT, J1_FIRE1, J1_FIRE2, , , J2_UP, J2_DOWN, J2_LEFT, J2_RIGHT, J2_FIRE1, J2_FIRE2, , COIN
\tB : VGA_RED(0), VGA_RED(1), VGA_RED(2), VGA_RED(3), VGA_GREEN(0), VGA_GREEN(1), VGA_GREEN(2), VGA_GREEN(3), VGA_BLUE(0), VGA_BLUE(1), VGA_BLUE(2), VGA_BLUE(3), VGA_HSYNC, , , VGA_VSYNC
\tC \x7b IOSTANDARD = LVTTL \x7d : AUDIO_LEFT, AUDIO_RIGHT, , , PS2_DATA1, PS2_CLK1, PS2_DATA2, PS2_CLK2, LED(0) \x7b DRIVE = 8 \x7d, LED(1) \x7b DRIVE = 8 \x7d, , , , , ,
\x7d
"

end Pinout.Builtin
